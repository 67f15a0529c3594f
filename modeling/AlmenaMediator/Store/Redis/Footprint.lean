import AlmenaMediator.Store.Redis.Store

/-!
# What a request can change

The keys of the store fall into areas that its scripts write together. A request writes the keys of
a few areas, and whatever it does, aborting halfway included, the other areas stay as they are.

## Main results

* `keeps_area`: the script of a request keeps the areas it does not touch;
* `server_sameArea`: so does the server when it handles the request.
-/

namespace Store.Redis

open Script

/-- What is kept on the server, by what the scripts write together. -/
inductive Area
  | clock
  | granted
  | seen
  /-- The owners of recipient DIDs and the recipients of mediations. -/
  | registry
  /-- Streams, byte counters and bodies. -/
  | queues
  | rate
  | devices
  | pushSent
  | relays
  deriving DecidableEq, Repr

/-- Whether the script of a request may write an area. -/
def Request.Touches : Request → Area → Prop
  | .grant .., .granted | .grant .., .seen | .touch .., .seen => True
  | .removeMediation .., .clock | .removeMediation .., .rate | .removeMediation .., .relays => False
  | .removeMediation .., _ => True
  | .addRecipient .., .registry | .removeRecipient .., .registry => True
  | .enqueue .., .queues | .trim .., .queues | .remove .., .queues => True
  | .hit .., .rate => True
  | .scheduleRelay .., .relays | .dueRelays .., .relays | .finishRelay .., .relays => True
  | .setDevice .., .devices | .removeDevice .., .devices => True
  | .claimPush .., .pushSent | .releasePush .., .pushSent => True
  | _, _ => False

/-- No request changes the server's time. -/
theorem Request.not_touches_clock (request : Request) : ¬ request.Touches .clock := by
  cases request <;> exact id

/-- An area is the same in two states of the server. -/
def Db.SameArea (area : Area) (db db' : Db) : Prop :=
  match area with
  | .clock => db'.clock = db.clock
  | .granted => db'.granted = db.granted
  | .seen => db'.seen = db.seen
  | .registry => db'.owner = db.owner ∧ db'.recipients = db.recipients
  | .queues => db'.queue = db.queue ∧ db'.bytes = db.bytes ∧ db'.body = db.body
  | .rate => db'.rate = db.rate
  | .devices => db'.devices = db.devices
  | .pushSent => db'.pushSent = db.pushSent
  | .relays => db'.relayDue = db.relayDue ∧ db'.relayItems = db.relayItems

/-- Every area is the same as itself. -/
theorem Db.SameArea.refl (area : Area) (db : Db) : Db.SameArea area db db := by
  cases area <;> simp [Db.SameArea]

variable {area : Area} {request : Request}

/-- Removing a mediation leaves the server's time, the rate limits and the relays alone. -/
theorem keeps_area_removeMediation {mediation : String} {cutoff : ℕ} {db : Db}
    (h : ¬ (Request.removeMediation mediation cutoff).Touches area) :
    Keeps (Db.SameArea area db) (removeMediation mediation cutoff) := by
  intro db' hdb'
  rcases exec_removeMediation mediation cutoff db' with ⟨-, heq⟩ | ⟨-, body, heq⟩
  · rwa [heq]
  · rw [heq]
    cases area with
    | clock | rate | relays => exact hdb'
    | _ => exact absurd trivial h

/-- The script of a request keeps the areas it does not touch. -/
theorem keeps_area (h : ¬ request.Touches area) (db : Db) :
    Keeps (Db.SameArea area db) request.script := by
  -- In every case the area is one the script does not write, or `h` rules it out.
  cases request with
  | seenBy => exact keeps_zrangeLimit _ _ _
  | isGranted | recipients | owner | entries | bodies | devices => exact keeps_read _
  | removeMediation => exact keeps_area_removeMediation h
  | grant | finishRelay | setDevice =>
    cases area <;> first | exact absurd trivial h | exact keeps_write fun _ hdb => hdb
  | touch => cases area <;> first | exact absurd trivial h | exact keeps_touch fun _ hdb => hdb
  | addRecipient =>
    cases area <;> first
      | exact absurd trivial h
      | exact keeps_addRecipient (fun _ _ hdb => hdb) (fun _ _ hdb => hdb) _ _ _
  | removeRecipient =>
    cases area <;> first
      | exact absurd trivial h
      | exact keeps_removeRecipient (fun _ _ hdb => hdb) (fun _ _ hdb => hdb) _ _
  | enqueue =>
    cases area <;> first
      | exact absurd trivial h
      | exact keeps_enqueue (fun _ _ hdb => hdb) (fun _ _ hdb => hdb) (fun _ _ hdb => hdb)
          _ _ _ _ _ _ _
  | trim =>
    cases area <;> first
      | exact absurd trivial h
      | exact keeps_trim (fun _ _ hdb => hdb) (fun _ _ hdb => hdb) _
  | remove =>
    cases area <;> first
      | exact absurd trivial h
      | exact keeps_remove (fun _ _ hdb => hdb) (fun _ _ hdb => hdb) (fun _ _ hdb => hdb) _
  | hit =>
    cases area <;> first
      | exact absurd trivial h
      | exact keeps_hit (fun _ _ hdb => hdb) _ _ _
  | scheduleRelay =>
    cases area <;> first
      | exact absurd trivial h
      | exact keeps_scheduleRelay (fun _ _ hdb => hdb) (fun _ _ hdb => hdb) _ _ _
  | dueRelays =>
    cases area <;> first
      | exact absurd trivial h
      | exact keeps_dueRelays (fun _ _ hdb => hdb) _ _ _
  | removeDevice =>
    cases area <;> first
      | exact absurd trivial h
      | exact keeps_removeDevice (fun _ _ hdb => hdb) _ _
  | claimPush =>
    cases area <;> first
      | exact absurd trivial h
      | exact keeps_claimPush (fun _ _ hdb => hdb) _ _
  | releasePush =>
    cases area <;> first
      | exact absurd trivial h
      | exact keeps_releasePush (fun _ _ hdb => hdb) _ _

/-- A request leaves the areas it does not touch as they are. -/
theorem server_sameArea (h : ¬ request.Touches area) (db : Db) :
    Db.SameArea area db (server request db).2 :=
  keeps_area h db db (Db.SameArea.refl area db)

end Store.Redis
