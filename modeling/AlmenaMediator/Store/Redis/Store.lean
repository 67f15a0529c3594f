import AlmenaMediator.Store.Redis.Scripts

/-!
# The Redis store

`store/redis.rs`: `RedisStore`. What it sends to the server are the requests of `ServerCall`, each
answered without interruption; its methods are programs over them, so that other clients may come
between two requests of one method. The JSON of relays and devices is kept as the value it encodes.
-/

namespace Store.Redis

/-- What the store sends to the server. -/
inductive Request
  | grant (mediation : String) (now : ℕ)
  | touch (mediation : String) (now : ℕ)
  /-- `ZRANGE mediations:seen -inf cutoff BYSCORE LIMIT 0 limit`. -/
  | seenBy (cutoff limit : ℕ)
  | removeMediation (mediation : String) (cutoff : ℕ)
  /-- `EXISTS mediation:{M}`. -/
  | isGranted (mediation : String)
  | addRecipient (mediation recipient : String) (max : ℕ)
  | removeRecipient (mediation recipient : String)
  /-- `SMEMBERS mediation:{M}:recipients`. -/
  | recipients (mediation : String)
  /-- `GET recipient:{R}`. -/
  | owner (recipient : String)
  | enqueue (mediation : String) (minId : StreamId) (maxMessages maxBytes : ℕ) (recipient : String)
    (size : ℕ) (body : String) (ttl : ℕ)
  | trim (mediation : String) (minId : StreamId)
  /-- `XRANGE queue - +`. -/
  | entries (mediation : String)
  /-- `MGET` of bodies. -/
  | bodies (mediation : String) (ids : List String)
  | remove (mediation : String) (ids : List String)
  | hit (key : String) (window windowSecs : ℕ)
  | scheduleRelay (relay : PendingRelay) (due maxPending : ℕ)
  | dueRelays (now leaseEnd limit : ℕ)
  | finishRelay (id : String)
  | setDevice (mediation : String) (service : Service) (device : Option Device)
  /-- `HGETALL push:{M}`. -/
  | devices (mediation : String)
  | removeDevice (mediation : String) (service : Service) (token : String)
  | claimPush (mediation : String) (now hold : ℕ)
  | releasePush (mediation : String) (now minInterval : ℕ)
  deriving DecidableEq

namespace Request

/-- What the server answers. -/
@[reducible] def Answer : Request → Type
  | grant .. | touch .. | trim .. | finishRelay .. | setDevice .. | removeDevice ..
  | releasePush .. => Unit
  | seenBy .. | recipients .. => List String
  | removeMediation .. | remove .. | hit .. | scheduleRelay .. => ℕ
  | isGranted .. | claimPush .. => Bool
  | addRecipient .. | removeRecipient .. => String
  | owner .. | enqueue .. => Option String
  | entries .. => List Entry
  | bodies .. => List (Option String)
  | dueRelays .. => List PendingRelay
  | devices .. => List (Service × Device)

/-- The script a request runs. -/
def script : (r : Request) → Script Db r.Answer
  | grant mediation now => Redis.grant mediation now
  | touch mediation now => Redis.touch mediation now
  | seenBy cutoff limit => zrangeLimit Db.seen cutoff limit
  | removeMediation mediation cutoff => Redis.removeMediation mediation cutoff
  | isGranted mediation => Script.read fun db => (db.granted mediation).isSome
  | addRecipient mediation recipient max => Redis.addRecipient mediation recipient max
  | removeRecipient mediation recipient => Redis.removeRecipient mediation recipient
  | recipients mediation => Script.read fun db => db.recipients mediation
  | owner recipient => Script.read fun db => db.owner recipient
  | enqueue mediation minId maxMessages maxBytes recipient size body ttl =>
    Redis.enqueue mediation minId maxMessages maxBytes recipient size body ttl
  | trim mediation minId => Redis.trim mediation minId
  | entries mediation => Script.read fun db => db.entries mediation
  | bodies mediation ids =>
    Script.read fun db => ids.map fun id => (db.body mediation id).map Volatile.value
  | remove mediation ids => Redis.remove mediation ids
  | hit key window windowSecs => Redis.hit key window windowSecs
  | scheduleRelay relay due maxPending => Redis.scheduleRelay relay due maxPending
  | dueRelays now leaseEnd limit => Redis.dueRelays now leaseEnd limit
  | finishRelay id => Redis.finishRelay id
  | setDevice mediation service device => Redis.setDevice mediation service device
  | devices mediation => Script.read fun db =>
    [Service.fcm, Service.apns].filterMap fun s => (db.devices mediation s).map fun d => (s, d)
  | removeDevice mediation service token => Redis.removeDevice mediation service token
  | claimPush mediation now hold => Redis.claimPush mediation now hold
  | releasePush mediation now minInterval => Redis.releasePush mediation now minInterval

end Request

/-- The requests as an interface; an answer is the script's result or its error. -/
abbrev ServerCall : Interface where
  Op := Request
  Reply r := Except StoreError r.Answer

/-- The server. -/
def server : Handler ServerCall Db := fun request db => request.script.exec db

/-- What can happen to the server: a request of any client, or time passing. -/
inductive ServerStep : Db → Option (Call ServerCall) → Db → Prop
  | request {db db' : Db} {c : Call ServerCall} (handled : Program.Handled server db c db') :
      ServerStep db (some c) db'
  | time {db : Db} (ms : ℕ) : ServerStep db none (db.advance ms)

/-- A method of the store. -/
abbrev Method (α : Type) : Type := ExceptT StoreError (Program ServerCall) α

/-- Sends a request. -/
def send (r : Request) : Method r.Answer := ExceptT.mk (Program.request (I := ServerCall) r)

/-- The stream id below which entries are older than the TTL. -/
def minId (now ttlSecs : ℕ) : StreamId := ⟨(now - ttlSecs) * 1000, 0⟩

/-- Drops expired entries, then returns the queue's entries for `recipient`, or all. -/
def entriesFor (mediation : String) (recipient : Option String) (now ttlSecs : ℕ) :
    Method (List Entry) := do
  send (.trim mediation (minId now ttlSecs))
  let entries : List Entry ← send (.entries mediation)
  return entries.filter fun e => recipient.all fun r => e.recipient == r

/-- When an entry was received, from its id. -/
def receivedAt (e : Entry) : ℕ := idMillis e.id.text / 1000

/-- Counts one more entry. -/
def countEntry (summary : QueueSummary) (e : Entry) : QueueSummary where
  count := summary.count + 1
  oldest := some (summary.oldest.elim (receivedAt e) fun o => min o (receivedAt e))
  newest := some (summary.newest.elim (receivedAt e) fun n => max n (receivedAt e))
  totalBytes := summary.totalBytes + e.size

def addRecipientResult : String → Except StoreError AddRecipient
  | "added" => .ok .added
  | "mine" => .ok .alreadyYours
  | "taken" => .ok .takenByOther
  | "limit" => .ok .limitReached
  | other => .error ("unexpected add-recipient result " ++ other)

def removeRecipientResult : String → Except StoreError RemoveRecipient
  | "removed" => .ok .removed
  | "none" => .ok .notRegistered
  | "theirs" => .ok .notYours
  | other => .error ("unexpected remove-recipient result " ++ other)

/-- Removes the mediations named, if they are still idle. Returns those that went. -/
def removeMediations (cutoff : ℕ) : List String → Method (List String)
  | [] => pure []
  | mediation :: mediations => do
    let gone : ℕ ← send (.removeMediation mediation cutoff)
    let removed ← removeMediations cutoff mediations
    return if gone = 1 then mediation :: removed else removed

/-- `RedisStore::remove`: the ids with the shape of a queue id go to the server. -/
def removeIds (mediation : String) (ids : List String) : Method ℕ :=
  let ids := ids.filter isQueueId
  if ids = [] then pure 0 else send (.remove mediation ids)

/-- A queue entry with its body. -/
def queuedOf (e : Entry) (body : String) : Queued :=
  { id := e.id.text, recipient := e.recipient, received := receivedAt e, message := body }

/-- `RedisStore::peek`. Entries whose body is gone are removed on the way. -/
def peek (mediation : String) (recipient : Option String) (limit now ttlSecs : ℕ) :
    Method (List Queued) := do
  let entries := (← entriesFor mediation recipient now ttlSecs).take limit
  if entries = [] then return []
  let bodies : List (Option String) ← send (.bodies mediation (entries.map fun e => e.id.text))
  let pairs := entries.zip bodies
  let orphans := pairs.filterMap fun (e, body) => if body.isNone then some e.id.text else none
  if orphans ≠ [] then
    let _ ← removeIds mediation orphans
  return pairs.filterMap fun (e, body) => body.map (queuedOf e)

/-- The methods of `RedisStore`. -/
def method : (op : Op) → Method op.Answer
  | .grantMediation mediation now => send (.grant mediation now)
  | .touchMediation mediation now => send (.touch mediation now)
  | .removeIdleMediations cutoff limit => do
    let idle ← send (.seenBy cutoff limit)
    removeMediations cutoff idle
  | .hasMediation mediation => send (.isGranted mediation)
  | .addRecipient mediation recipient max => do
    let result ← send (.addRecipient mediation recipient max)
    ExceptT.mk (pure (addRecipientResult result))
  | .removeRecipient mediation recipient => do
    let result ← send (.removeRecipient mediation recipient)
    ExceptT.mk (pure (removeRecipientResult result))
  | .recipients mediation => do
    let set : List String ← send (.recipients mediation)
    return set.insertionSort (· ≤ ·)
  | .mediationOf recipient => send (.owner recipient)
  | .enqueue mediation recipient message now limits =>
    send (.enqueue mediation (minId now limits.ttlSecs) limits.maxMessages limits.maxBytes recipient
      message.utf8ByteSize message (max limits.ttlSecs 1))
  | .summary mediation recipient now ttlSecs => do
    let entries ← entriesFor mediation recipient now ttlSecs
    return entries.foldl countEntry ⟨0, none, none, 0⟩
  | .peek mediation recipient limit now ttlSecs => peek mediation recipient limit now ttlSecs
  | .remove mediation ids => removeIds mediation ids
  | .hit key windowSecs now =>
    send (.hit key (now / max windowSecs 1) (min (max windowSecs 1) (2 ^ 63 - 1)))
  | .scheduleRelay relay due maxPending => do
    let stored : ℕ ← send (.scheduleRelay relay due maxPending)
    return stored == 1
  | .dueRelays now leaseSecs limit => send (.dueRelays now (now + leaseSecs) limit)
  | .finishRelay id => send (.finishRelay id)
  | .setDevice mediation service device => send (.setDevice mediation service device)
  | .devices mediation => send (.devices mediation)
  | .removeDevice mediation service token => send (.removeDevice mediation service token)
  | .claimPush mediation now holdSecs => send (.claimPush mediation now (max holdSecs 1))
  | .releasePush mediation now minIntervalSecs => send (.releasePush mediation now minIntervalSecs)

/-- The requests a method may send. -/
def Sends : Op → Request → Prop
  | .grantMediation mediation now, r => r = .grant mediation now
  | .touchMediation mediation now, r => r = .touch mediation now
  | .removeIdleMediations cutoff limit, r =>
    r = .seenBy cutoff limit ∨ ∃ mediation, r = .removeMediation mediation cutoff
  | .hasMediation mediation, r => r = .isGranted mediation
  | .addRecipient mediation recipient max, r => r = .addRecipient mediation recipient max
  | .removeRecipient mediation recipient, r => r = .removeRecipient mediation recipient
  | .recipients mediation, r => r = .recipients mediation
  | .mediationOf recipient, r => r = .owner recipient
  | .enqueue mediation recipient message now limits, r =>
    r = .enqueue mediation (minId now limits.ttlSecs) limits.maxMessages limits.maxBytes recipient
      message.utf8ByteSize message (max limits.ttlSecs 1)
  | .summary mediation _ now ttlSecs, r =>
    r = .trim mediation (minId now ttlSecs) ∨ r = .entries mediation
  | .peek mediation _ _ now ttlSecs, r =>
    r = .trim mediation (minId now ttlSecs) ∨ r = .entries mediation ∨
      (∃ ids, r = .bodies mediation ids) ∨ ∃ ids, r = .remove mediation ids
  | .remove mediation ids, r => r = .remove mediation (ids.filter isQueueId)
  | .hit key windowSecs now, r =>
    r = .hit key (now / max windowSecs 1) (min (max windowSecs 1) (2 ^ 63 - 1))
  | .scheduleRelay relay due maxPending, r => r = .scheduleRelay relay due maxPending
  | .dueRelays now leaseSecs limit, r => r = .dueRelays now (now + leaseSecs) limit
  | .finishRelay id, r => r = .finishRelay id
  | .setDevice mediation service device, r => r = .setDevice mediation service device
  | .devices mediation, r => r = .devices mediation
  | .removeDevice mediation service token, r => r = .removeDevice mediation service token
  | .claimPush mediation now holdSecs, r => r = .claimPush mediation now (max holdSecs 1)
  | .releasePush mediation now minIntervalSecs, r => r = .releasePush mediation now minIntervalSecs

section Requests

variable {rely : (r : Request) → ServerCall.Reply r → Prop} {guar : Request → Prop} {α β : Type}
  {post : Except StoreError β → Prop}

/-- The rule for sending a request and going on with its answer. -/
theorem ensures_send_bind {r : Request} {f : r.Answer → Method β} (hguar : guar r)
    (herror : ∀ e, rely r (.error e) → post (.error e))
    (hok : ∀ a, rely r (.ok a) → (f a).run.Ensures rely guar post) :
    (send r >>= f).run.Ensures rely guar post := by
  rw [Program.ensures_exceptT_bind]
  refine ⟨hguar, fun reply hreply => ?_⟩
  cases reply with
  | ok a => exact hok a hreply
  | error e => exact herror e hreply

/-- The rule for sending a last request. -/
theorem ensures_send {r : Request} {post : Except StoreError r.Answer → Prop} (hguar : guar r)
    (hpost : ∀ reply, rely r reply → post reply) : (send r).run.Ensures rely guar post :=
  ⟨hguar, hpost⟩

end Requests

/-- The loop that removes idle mediations sends REMOVE_MEDIATION requests with its cutoff only. -/
theorem removeMediations_sends (cutoff : ℕ) (idle : List String) :
    (removeMediations cutoff idle).run.Ensures (fun _ _ => True)
      (fun r : Request => ∃ mediation, r = .removeMediation mediation cutoff) fun _ => True := by
  induction idle with
  | nil => trivial
  | cons m rest ih =>
    refine ensures_send_bind ⟨m, rfl⟩ (fun _ _ => trivial) fun gone _ => ?_
    rw [Program.ensures_exceptT_bind]
    refine ih.imp fun result _ => ?_
    cases result <;> trivial

/-- Reading the entries for a recipient sends one TRIM and one reading of the entries of the
mediation. -/
theorem entriesFor_sends {mediation : String} {recipient : Option String} {now ttlSecs : ℕ} :
    (entriesFor mediation recipient now ttlSecs).run.Ensures (fun _ _ => True)
      (fun r : Request => r = .trim mediation (minId now ttlSecs) ∨ r = .entries mediation)
      fun _ => True :=
  ensures_send_bind (.inl rfl) (fun _ _ => trivial) fun _ _ =>
    ensures_send_bind (.inr rfl) (fun _ _ => trivial) fun _ _ => trivial

/-- Removing ids sends at most one REMOVE with the ids that have the form of a queue id. -/
theorem removeIds_sends (mediation : String) (ids : List String) :
    (removeIds mediation ids).run.Ensures (fun _ _ => True)
      (fun r : Request => r = .remove mediation (ids.filter isQueueId)) fun _ => True := by
  simp only [removeIds]
  split
  · trivial
  · exact ensures_send rfl fun _ _ => trivial

/-- A method sends no other requests. -/
theorem method_sends (op : Op) :
    (method op).run.Ensures (fun _ _ => True) (Sends op) fun _ => True := by
  cases op with
  | removeIdleMediations cutoff limit =>
    refine ensures_send_bind (.inl rfl) (fun _ _ => trivial) fun idle _ => ?_
    exact (removeMediations_sends cutoff idle).mono (fun _ _ h => h) (fun _ h => .inr h)
      fun _ h => h
  | addRecipient | removeRecipient | recipients | scheduleRelay =>
    exact ensures_send_bind rfl (fun _ _ => trivial) fun _ _ => trivial
  | summary mediation recipient now ttlSecs =>
    rw [method, Program.ensures_exceptT_bind]
    exact entriesFor_sends.imp fun result _ => by cases result <;> trivial
  | peek mediation recipient limit now ttlSecs =>
    rw [method, peek, Program.ensures_exceptT_bind]
    refine entriesFor_sends.mono (fun _ _ h => h) (fun r h => h.elim .inl fun h => .inr (.inl h))
      fun result _ => ?_
    cases result with
    | error e => trivial
    | ok entries =>
      -- bodies are read only where there are entries, and orphans removed only where a body is gone
      by_cases hempty : entries.take limit = []
      · simp only [hempty, ↓reduceIte]
        trivial
      · simp only [hempty, ↓reduceIte]
        refine ensures_send_bind (.inr (.inr (.inl ⟨_, rfl⟩))) (fun _ _ => trivial)
          fun bodies _ => ?_
        split
        · rw [Program.ensures_exceptT_bind]
          refine (removeIds_sends _ _).mono (fun _ _ h => h)
            (fun r h => .inr (.inr (.inr ⟨_, h⟩))) fun result _ => ?_
          cases result <;> trivial
        · trivial
  | remove mediation ids => exact removeIds_sends mediation ids
  | _ => exact ensures_send rfl fun _ _ => trivial

/-- `RedisStore` with no other client in between. -/
def redis : Handler StoreCall Db := fun op db => (method op).run.run server db

/-- A method call on the Redis store, some time after the one before. -/
def RedisStep : Program.Environment StoreCall Db := fun db c db' =>
  ∃ ms, Program.Handled redis (db.advance ms) c db'

/-- A call on `RedisStore` is a run of the server over requests the method may send. -/
theorem redis_requests {c : Call StoreCall} {db db' : Db} (h : Program.Handled redis db c db') :
    ∃ requests : List (Call ServerCall), Transition.Run ServerStep db (requests.map some) db' ∧
      ∀ r ∈ requests, Sends c.op r.op := by
  obtain ⟨op, reply⟩ := c
  obtain ⟨rfl, rfl⟩ := h.eq
  have hexec := Program.run_executes server (method op).run db
  have hsends := (method_sends op).sound (fun _ => True)
    (fun _ _ _ _ _ _ => ⟨trivial, trivial⟩) trivial hexec
  exact ⟨_, hexec.toRun.map some fun _ _ _ => .request, fun r hr => (hsends.2.2 r hr).1⟩

end Store.Redis
