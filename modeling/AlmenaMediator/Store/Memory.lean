import AlmenaMediator.Store.Basic
import Mathlib.Algebra.Ring.Nat
import Mathlib.Data.List.Sort
import Mathlib.Data.String.Basic
import Mathlib.Logic.Function.Basic

/-!
# The in-process store

`store/memory.rs`: `MemoryStore` behind its mutex, so that every method is one step. A map whose
absent entries read as empty is a function to lists. `seen` and `hits`, which are iterated or
measured, are association lists; the order in which `seen` is iterated is an argument, since a
`HashMap` promises none.
-/

namespace Store

/-- The state of the in-process store. -/
structure Inner where
  mediations : String → Bool
  /-- Recipient DID → mediation. -/
  owners : String → Option String
  /-- Mediation → its recipient DIDs, sorted. -/
  recipients : String → List String
  queues : String → List Queued
  /-- Key → (window, hits). -/
  hits : List (String × ℕ × ℕ)
  seq : ℕ
  devices : String → Service → Option Device
  /-- Mediation → (when the last push went, when the marker lapses). -/
  pushSent : String → Option (ℕ × ℕ)
  /-- (When it is due, the relay), sorted by relay id. -/
  relays : List (ℕ × PendingRelay)
  /-- Mediation → when its wallet was last active. -/
  seen : List (String × ℕ)

namespace Inner

/-- `MemoryStore::new`. -/
def empty : Inner where
  mediations _ := false
  owners _ := none
  recipients _ := []
  queues _ := []
  hits := []
  seq := 0
  devices _ _ := none
  pushSent _ := none
  relays := []
  seen := []

/-! ## Mediations -/

/-- `seen.insert(mediation, now)`. -/
def see (inner : Inner) (mediation : String) (now : ℕ) : Inner :=
  { inner with seen := (mediation, now) :: inner.seen.filter fun e => e.1 != mediation }

def grantMediation (mediation : String) (now : ℕ) (inner : Inner) : Inner :=
  { inner with mediations := Function.update inner.mediations mediation true }.see mediation now

def touchMediation (mediation : String) (now : ℕ) (inner : Inner) : Inner :=
  if inner.mediations mediation then inner.see mediation now else inner

/-- Removes one mediation with all it owns. -/
def removeMediation (inner : Inner) (mediation : String) : Inner :=
  { inner with
    seen := inner.seen.filter fun e => e.1 != mediation
    mediations := Function.update inner.mediations mediation false
    owners := fun r => if r ∈ inner.recipients mediation then none else inner.owners r
    recipients := Function.update inner.recipients mediation []
    queues := Function.update inner.queues mediation []
    devices := Function.update inner.devices mediation fun _ => none
    pushSent := Function.update inner.pushSent mediation none }

/-- Removes up to `limit` mediations last active at or before `cutoff`, in the order `seen` is
iterated. -/
def removeIdleMediations (order : List (String × ℕ)) (cutoff limit : ℕ) (inner : Inner) :
    List String × Inner :=
  let idle := ((order.filter fun e => e.2 ≤ cutoff).map Prod.fst).take limit
  (idle, idle.foldl removeMediation inner)

/-! ## Recipients -/

def addRecipient (mediation recipient : String) (max : ℕ) (inner : Inner) : AddRecipient × Inner :=
  match inner.owners recipient with
  | some owner => (if owner = mediation then .alreadyYours else .takenByOther, inner)
  | none =>
    let set := inner.recipients mediation
    if max ≤ set.length then (.limitReached, inner)
    else (.added,
      { inner with
        recipients := Function.update inner.recipients mediation
          (if recipient ∈ set then set else set.orderedInsert (· ≤ ·) recipient)
        owners := Function.update inner.owners recipient (some mediation) })

def removeRecipient (mediation recipient : String) (inner : Inner) : RemoveRecipient × Inner :=
  match inner.owners recipient with
  | none => (.notRegistered, inner)
  | some owner =>
    if owner ≠ mediation then (.notYours, inner)
    else (.removed,
      { inner with
        owners := Function.update inner.owners recipient none
        recipients := Function.update inner.recipients mediation
          ((inner.recipients mediation).erase recipient) })

/-! ## Queues -/

/-- The entries of a queue that are not expired. -/
def unexpired (now ttlSecs : ℕ) (queue : List Queued) : List Queued :=
  queue.filter fun q => now - ttlSecs ≤ q.received

/-- Drops the mediation's expired messages. -/
def expire (mediation : String) (now ttlSecs : ℕ) (inner : Inner) : Inner :=
  { inner with
    queues := Function.update inner.queues mediation
      (unexpired now ttlSecs (inner.queues mediation)) }

/-- Bytes of the messages in a queue. -/
def bytes (queue : List Queued) : ℕ := (queue.map fun q => q.message.utf8ByteSize).sum

def enqueue (mediation recipient message : String) (now : ℕ) (limits : QueueLimits)
    (inner : Inner) : Option String × Inner :=
  let inner := { inner with seq := inner.seq + 1 }
  let id := queueId (now * 1000) inner.seq
  let inner := inner.expire mediation now limits.ttlSecs
  let queue := inner.queues mediation
  if limits.maxMessages ≤ queue.length ∨
      limits.maxBytes < bytes queue + message.utf8ByteSize then (none, inner)
  else (some id,
    { inner with
      queues := Function.update inner.queues mediation (queue ++
        [{ id := id, recipient := recipient, received := idMillis id / 1000,
           message := message }]) })

/-- The messages for `recipient`, or all. -/
def matching (recipient : Option String) (queue : List Queued) : List Queued :=
  queue.filter fun q => recipient.all fun r => q.recipient == r

/-- Counts one more message. -/
def count (summary : QueueSummary) (q : Queued) : QueueSummary where
  count := summary.count + 1
  oldest := some (summary.oldest.elim q.received fun o => min o q.received)
  newest := some (summary.newest.elim q.received fun n => max n q.received)
  totalBytes := summary.totalBytes + q.message.utf8ByteSize

def summary (mediation : String) (recipient : Option String) (now ttlSecs : ℕ) (inner : Inner) :
    QueueSummary × Inner :=
  let inner := inner.expire mediation now ttlSecs
  ((matching recipient (inner.queues mediation)).foldl count ⟨0, none, none, 0⟩, inner)

def peek (mediation : String) (recipient : Option String) (limit now ttlSecs : ℕ)
    (inner : Inner) : List Queued × Inner :=
  let inner := inner.expire mediation now ttlSecs
  ((matching recipient (inner.queues mediation)).take limit, inner)

def remove (mediation : String) (ids : List String) (inner : Inner) : ℕ × Inner :=
  let queue := inner.queues mediation
  let kept := queue.filter fun q => !ids.contains q.id
  (queue.length - kept.length, { inner with queues := Function.update inner.queues mediation kept })

/-! ## Rate limits -/

/-- More keys than this and the ones of past windows are dropped. -/
def maxHits : ℕ := 100000

def hit (key : String) (windowSecs now : ℕ) (inner : Inner) : ℕ × Inner :=
  let window := now / max windowSecs 1
  let hits := if maxHits < inner.hits.length then inner.hits.filter fun e => e.2.1 == window
    else inner.hits
  let before := match hits.find? fun e => e.1 == key with
    | some (_, w, n) => if w = window then n else 0
    | none => 0
  (before + 1,
    { inner with hits := (key, window, before + 1) :: hits.filter fun e => e.1 != key })

/-! ## Relays -/

def scheduleRelay (relay : PendingRelay) (due maxPending : ℕ) (inner : Inner) : Bool × Inner :=
  if !(inner.relays.any fun e => e.2.id == relay.id) && maxPending ≤ inner.relays.length then
    (false, inner)
  else (true, { inner with
    relays := (inner.relays.filter fun e => e.2.id != relay.id).orderedInsert
      (fun a b => a.2.id ≤ b.2.id) (due, relay) })

def dueRelays (now leaseSecs limit : ℕ) (inner : Inner) : List PendingRelay × Inner :=
  let due := (inner.relays.filter fun e => e.1 ≤ now).insertionSort fun a b => a.1 ≤ b.1
  let leased := (due.take limit).map Prod.snd
  (leased, { inner with
    relays := inner.relays.map fun e =>
      if leased.any fun relay => relay.id == e.2.id then (now + leaseSecs, e.2) else e })

def finishRelay (id : String) (inner : Inner) : Inner :=
  { inner with relays := inner.relays.filter fun e => e.2.id != id }

/-! ## Push -/

def setDevice (mediation : String) (service : Service) (device : Option Device) (inner : Inner) :
    Inner :=
  { inner with
    devices := Function.update inner.devices mediation
      (Function.update (inner.devices mediation) service device) }

/-- The mediation's devices, sorted by service. -/
def devicesOf (mediation : String) (inner : Inner) : List (Service × Device) :=
  [Service.fcm, Service.apns].filterMap fun s => (inner.devices mediation s).map fun d => (s, d)

def removeDevice (mediation : String) (service : Service) (token : String)
    (inner : Inner) : Inner :=
  if (inner.devices mediation service).any fun d => d.token == token then
    inner.setDevice mediation service none
  else inner

def claimPush (mediation : String) (now holdSecs : ℕ) (inner : Inner) : Bool × Inner :=
  if (inner.pushSent mediation).any fun p => now < p.2 then (false, inner)
  else (true, { inner with
    pushSent := Function.update inner.pushSent mediation (some (now, now + holdSecs)) })

def releasePush (mediation : String) (now minIntervalSecs : ℕ) (inner : Inner) : Inner :=
  match inner.pushSent mediation with
  | some (sent, until_) =>
    let until_ := min until_ (sent + minIntervalSecs)
    { inner with
      pushSent := Function.update inner.pushSent mediation
        (if until_ ≤ now then none else some (sent, until_)) }
  | none => inner

/-! ## What an operation can change -/

variable (inner : Inner) (mediation : String)

/-- Touching a mediation writes the times of the last contact and nothing else. -/
theorem touchMediation_effect (now : ℕ) :
    ∃ seen, inner.touchMediation mediation now = { inner with seen := seen } := by
  unfold touchMediation
  split
  · exact ⟨_, rfl⟩
  · exact ⟨inner.seen, rfl⟩

/-- Adding a recipient writes the owners and the lists of recipients and nothing else, whether it is
added, was there already or is refused. -/
theorem addRecipient_effect (recipient : String) (max : ℕ) :
    ∃ owners recipients, (inner.addRecipient mediation recipient max).2 =
      { inner with owners := owners, recipients := recipients } := by
  unfold addRecipient
  split
  · exact ⟨inner.owners, inner.recipients, rfl⟩
  · dsimp only
    split
    · exact ⟨inner.owners, inner.recipients, rfl⟩
    · exact ⟨_, _, rfl⟩

/-- Removing a recipient writes the owners and the lists of recipients and nothing else. -/
theorem removeRecipient_effect (recipient : String) :
    ∃ owners recipients, (inner.removeRecipient mediation recipient).2 =
      { inner with owners := owners, recipients := recipients } := by
  unfold removeRecipient
  split
  · exact ⟨inner.owners, inner.recipients, rfl⟩
  · split
    · exact ⟨inner.owners, inner.recipients, rfl⟩
    · exact ⟨_, _, rfl⟩

/-- Queueing takes the next sequence number and writes the queue of the one mediation, also where
the message is refused for want of room. -/
theorem enqueue_effect (recipient message : String) (now : ℕ) (limits : QueueLimits) :
    ∃ queue, (inner.enqueue mediation recipient message now limits).2 =
      { inner with
        seq := inner.seq + 1, queues := Function.update inner.queues mediation queue } := by
  unfold enqueue
  dsimp only
  split
  · exact ⟨_, rfl⟩
  · exact ⟨_, by simp [expire]; rfl⟩

/-- Storing a relay writes the pending relays and nothing else, also where it is refused. -/
theorem scheduleRelay_effect (relay : PendingRelay) (due maxPending : ℕ) :
    ∃ relays, (inner.scheduleRelay relay due maxPending).2 = { inner with relays := relays } := by
  unfold scheduleRelay
  split
  · exact ⟨inner.relays, rfl⟩
  · exact ⟨_, rfl⟩

/-- Removing a device writes the devices of the one mediation and nothing else. -/
theorem removeDevice_effect (service : Service) (token : String) :
    ∃ devices, inner.removeDevice mediation service token =
      { inner with devices := Function.update inner.devices mediation devices } := by
  unfold removeDevice
  split
  · exact ⟨_, rfl⟩
  · exact ⟨inner.devices mediation, by simp⟩

/-- Claiming the push turn writes the push marker of the one mediation and nothing else. -/
theorem claimPush_effect (now holdSecs : ℕ) :
    ∃ marker, (inner.claimPush mediation now holdSecs).2 =
      { inner with pushSent := Function.update inner.pushSent mediation marker } := by
  unfold claimPush
  split
  · exact ⟨inner.pushSent mediation, by simp⟩
  · exact ⟨_, rfl⟩

/-- Releasing the push turn writes the push marker of the one mediation and nothing else. -/
theorem releasePush_effect (now minIntervalSecs : ℕ) :
    ∃ marker, inner.releasePush mediation now minIntervalSecs =
      { inner with pushSent := Function.update inner.pushSent mediation marker } := by
  unfold releasePush
  split
  · exact ⟨_, rfl⟩
  · exact ⟨inner.pushSent mediation, by simp⟩

end Inner

/-! ## The implementation -/

/-- `MemoryStore`, when `seen` is iterated in `order`. It never fails. -/
def memory (order : List (String × ℕ)) : Handler StoreCall Inner := fun op inner =>
  match op with
  | .grantMediation mediation now => (.ok (), inner.grantMediation mediation now)
  | .touchMediation mediation now => (.ok (), inner.touchMediation mediation now)
  | .removeIdleMediations cutoff limit =>
    let (removed, inner) := inner.removeIdleMediations order cutoff limit
    (.ok removed, inner)
  | .hasMediation mediation => (.ok (inner.mediations mediation), inner)
  | .addRecipient mediation recipient max =>
    let (result, inner) := inner.addRecipient mediation recipient max
    (.ok result, inner)
  | .removeRecipient mediation recipient =>
    let (result, inner) := inner.removeRecipient mediation recipient
    (.ok result, inner)
  | .recipients mediation => (.ok (inner.recipients mediation), inner)
  | .mediationOf recipient => (.ok (inner.owners recipient), inner)
  | .enqueue mediation recipient message now limits =>
    let (id, inner) := inner.enqueue mediation recipient message now limits
    (.ok id, inner)
  | .summary mediation recipient now ttlSecs =>
    let (summary, inner) := inner.summary mediation recipient now ttlSecs
    (.ok summary, inner)
  | .peek mediation recipient limit now ttlSecs =>
    let (queued, inner) := inner.peek mediation recipient limit now ttlSecs
    (.ok queued, inner)
  | .remove mediation ids =>
    let (removed, inner) := inner.remove mediation ids
    (.ok removed, inner)
  | .hit key windowSecs now =>
    let (hits, inner) := inner.hit key windowSecs now
    (.ok hits, inner)
  | .scheduleRelay relay due maxPending =>
    let (stored, inner) := inner.scheduleRelay relay due maxPending
    (.ok stored, inner)
  | .dueRelays now leaseSecs limit =>
    let (relays, inner) := inner.dueRelays now leaseSecs limit
    (.ok relays, inner)
  | .finishRelay id => (.ok (), inner.finishRelay id)
  | .setDevice mediation service device => (.ok (), inner.setDevice mediation service device)
  | .devices mediation => (.ok (inner.devicesOf mediation), inner)
  | .removeDevice mediation service token => (.ok (), inner.removeDevice mediation service token)
  | .claimPush mediation now holdSecs =>
    let (claimed, inner) := inner.claimPush mediation now holdSecs
    (.ok claimed, inner)
  | .releasePush mediation now minIntervalSecs =>
    (.ok (), inner.releasePush mediation now minIntervalSecs)

/-- One method call on a `MemoryStore`: `seen` may be iterated in any order. -/
def MemoryStep : Program.Environment StoreCall Inner := fun inner c inner' =>
  ∃ order : List (String × ℕ), order.Perm inner.seen ∧ Program.Handled (memory order) inner c inner'

end Store
