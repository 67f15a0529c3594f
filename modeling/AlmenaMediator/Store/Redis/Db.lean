import AlmenaMediator.Library.Script
import AlmenaMediator.Store.Basic
import Mathlib.Algebra.Ring.Nat
import Mathlib.Data.List.Sort
import Mathlib.Data.String.Basic
import Mathlib.Logic.Function.Basic

/-!
# The Redis data the store uses

One typed map for each kind of key in `store/redis.rs`, and the commands its scripts call. Keys
with a time to live carry a deadline in server milliseconds and are gone once the clock passes it.
A stream id in a request is two decimal `u64`s, leading zeros allowed; anything else is an error.
Sizes, counts and times stay below `2^53`, where the Lua numbers of the scripts and the scores of
sorted sets are exact.
-/

namespace Store.Redis

/-- A stream id. -/
structure StreamId where
  ms : ℕ
  seq : ℕ
  deriving DecidableEq, Repr

namespace StreamId

/-- Stream ids are ordered by time, then sequence number. -/
def lt (a b : StreamId) : Bool := a.ms < b.ms || (a.ms == b.ms && a.seq < b.seq)

/-- An id as Redis writes it. -/
def text (id : StreamId) : String := queueId id.ms id.seq

/-- A decimal `u64`. -/
def parseU64 (digits : List Char) : Option ℕ := (decimal digits).filter fun n => n < 2 ^ 64

/-- An id as Redis reads it. -/
def parse (id : String) : Option StreamId := do
  let (ms, seq) ← Splitting.splitOnce '-' id.toList
  return { ms := ← parseU64 ms, seq := ← parseU64 seq }

end StreamId

/-- A queue entry: recipient and size; its body is a key of its own. -/
structure Entry where
  id : StreamId
  recipient : String
  size : ℕ
  deriving DecidableEq, Repr

/-- A stream: its entries, oldest first, and the last id it gave out. -/
structure Stream where
  entries : List Entry
  lastId : StreamId
  deriving DecidableEq, Repr

/-- A value with the server time (ms) after which it is gone, if any. -/
structure Volatile (α : Type) where
  value : α
  deadline : Option ℕ
  deriving DecidableEq, Repr

/-- Whether a key is still there at `clock`. -/
def Volatile.alive {α : Type} (clock : ℕ) (v : Volatile α) : Bool :=
  v.deadline.all fun d => clock ≤ d

/-- A sorted set: scores and members, by score and then member. -/
abbrev ZSet := List (ℕ × String)

/-- The database. An absent list or set is an empty one. -/
structure Db where
  /-- Server time in milliseconds. -/
  clock : ℕ
  /-- `mediation:{M}`. -/
  granted : String → Option ℕ
  /-- `mediations:seen`. -/
  seen : ZSet
  /-- `mediation:{M}:recipients`. -/
  recipients : String → List String
  /-- `recipient:{R}`. -/
  owner : String → Option String
  /-- `mediation:{M}:queue`. -/
  queue : String → Option (Volatile Stream)
  /-- `mediation:{M}:msg:{id}`. -/
  body : String → String → Option (Volatile String)
  /-- `mediation:{M}:bytes`. -/
  bytes : String → Option (Volatile ℤ)
  /-- `rate:{key}:{window}`. -/
  rate : String → ℕ → Option (Volatile ℕ)
  /-- `push:{M}`. -/
  devices : String → Service → Option Device
  /-- `push-sent:{M}`. -/
  pushSent : String → Option (Volatile ℕ)
  /-- `relay:due`. -/
  relayDue : ZSet
  /-- `relay:items`. -/
  relayItems : List (String × PendingRelay)

namespace Db

/-- A server with no keys. -/
def empty (clock : ℕ) : Db where
  clock := clock
  granted _ := none
  seen := []
  recipients _ := []
  owner _ := none
  queue _ := none
  body _ _ := none
  bytes _ := none
  rate _ _ := none
  devices _ _ := none
  pushSent _ := none
  relayDue := []
  relayItems := []

/-- Time passes: keys past their deadline are gone. -/
def advance (ms : ℕ) (db : Db) : Db :=
  let clock := db.clock + ms
  { db with
    clock := clock
    queue := fun m => (db.queue m).filter (Volatile.alive clock)
    body := fun m id => (db.body m id).filter (Volatile.alive clock)
    bytes := fun m => (db.bytes m).filter (Volatile.alive clock)
    rate := fun key w => (db.rate key w).filter (Volatile.alive clock)
    pushSent := fun m => (db.pushSent m).filter (Volatile.alive clock) }

/-- The entries of a queue. -/
def entries (db : Db) (mediation : String) : List Entry :=
  ((db.queue mediation).map fun v => v.value.entries).getD []

/-- The byte counter, 0 when absent. -/
def counter (db : Db) (mediation : String) : ℤ := ((db.bytes mediation).map Volatile.value).getD 0

/-- Deletes the entries of a queue that do not satisfy `p`. The stream stays, even empty. -/
def keepEntries (mediation : String) (p : Entry → Bool) (db : Db) : Db :=
  { db with
    queue := Function.update db.queue mediation ((db.queue mediation).map fun v =>
      { v with value := { v.value with entries := v.value.entries.filter p } }) }

end Db

/-! ## Sorted sets -/

def zadd (score : ℕ) (member : String) (set : ZSet) : ZSet :=
  (set.filter fun e => e.2 != member).orderedInsert
    (fun a b => a.1 < b.1 ∨ a.1 = b.1 ∧ a.2 ≤ b.2) (score, member)

def zrem (member : String) (set : ZSet) : ZSet := set.filter fun e => e.2 != member

def zscore (member : String) (set : ZSet) : Option ℕ :=
  (set.find? fun e => e.2 == member).map Prod.fst

/-- `-inf max BYSCORE LIMIT 0 limit`: the members with the lowest scores, up to `max`. -/
def zrange (max limit : ℕ) (set : ZSet) : List String :=
  ((set.filter fun e => e.1 ≤ max).map Prod.snd).take limit

/-! ## Commands -/

/-- The largest expiry time Redis keeps, in milliseconds. -/
def maxExpiry : ℕ := 2 ^ 63 - 1

/-- The deadline of a time to live of `ttl` seconds, or the error of `EX` and `EXPIRE`. -/
def deadlineIn (ttl : ℕ) : Script Db ℕ := do
  let clock ← Script.read Db.clock
  if maxExpiry < clock + ttl * 1000 then Script.abort "invalid expire time"
  else pure (clock + ttl * 1000)

/-- The largest `LIMIT` Redis reads. -/
def maxLimit : ℕ := 2 ^ 63 - 1

/-- `ZRANGE set -inf max BYSCORE LIMIT 0 limit`, or the error of a limit out of range. -/
def zrangeLimit (set : Db → ZSet) (max limit : ℕ) : Script Db (List String) := do
  if maxLimit < limit then Script.abort "value is not an integer or out of range"
  else Script.read fun db => zrange max limit (set db)

/-- `XRANGE queue - (minid`: the entries below an id. There is none below `0-0`. -/
def xrangeBefore (mediation : String) (minId : StreamId) : Script Db (List Entry) := do
  if minId = ⟨0, 0⟩ then Script.abort "invalid end ID for the interval"
  else Script.read fun db => (db.entries mediation).filter fun e => e.id.lt minId

/-- `XTRIM queue MINID minid`. -/
def xtrim (mediation : String) (minId : StreamId) : Script Db Unit :=
  Script.write (Db.keepEntries mediation fun e => !e.id.lt minId)

/-- `XRANGE queue id id`, first entry. -/
def xrangeId (mediation id : String) : Script Db (Option Entry) :=
  match StreamId.parse id with
  | none => Script.abort "Invalid stream ID specified as stream command argument"
  | some id => Script.read fun db => (db.entries mediation).find? fun e => e.id == id

/-- `XDEL queue id`. -/
def xdel (mediation : String) (id : StreamId) : Script Db ℕ := do
  let found ← Script.read fun db => (db.entries mediation).any fun e => e.id == id
  Script.write (Db.keepEntries mediation fun e => e.id != id)
  return if found then 1 else 0

/-- The id `XADD *` gives: the clock, or the one after the last. -/
def nextId (clock : ℕ) (last : StreamId) : StreamId :=
  if last.ms < clock then ⟨clock, 0⟩ else ⟨last.ms, last.seq + 1⟩

/-- `XADD queue * r recipient s size`. -/
def xadd (mediation recipient : String) (size : ℕ) : Script Db StreamId := do
  let clock ← Script.read Db.clock
  let stream ← Script.read fun db =>
    (db.queue mediation).getD { value := { entries := [], lastId := ⟨0, 0⟩ }, deadline := none }
  let id := nextId clock stream.value.lastId
  let entry : Entry := { id := id, recipient := recipient, size := size }
  Script.write fun db =>
    { db with
      queue := Function.update db.queue mediation (some
        { stream with value := { entries := stream.value.entries ++ [entry], lastId := id } }) }
  return id

/-- `INCRBY bytes n`, also for `DECRBY` with a negative `n`. -/
def incrBytes (mediation : String) (n : ℤ) : Script Db ℤ := do
  let counter ← Script.read fun db => (db.bytes mediation).getD { value := 0, deadline := none }
  Script.write fun db =>
    { db with
      bytes := Function.update db.bytes mediation
        (some { counter with value := counter.value + n }) }
  return counter.value + n

/-- `SET bytes 0 KEEPTTL`. -/
def zeroBytes (mediation : String) : Script Db Unit :=
  Script.write fun db =>
    { db with
      bytes := Function.update db.bytes mediation
        (some { value := 0, deadline := (db.bytes mediation).bind Volatile.deadline }) }

/-- `SET body text EX ttl`. -/
def setBody (mediation id text : String) (ttl : ℕ) : Script Db Unit := do
  let deadline ← deadlineIn ttl
  Script.write fun db =>
    { db with
      body := Function.update db.body mediation
        (Function.update (db.body mediation) id
          (some { value := text, deadline := some deadline })) }

/-- `DEL body`. -/
def delBody (mediation id : String) : Script Db Unit :=
  Script.write fun db =>
    { db with
      body := Function.update db.body mediation (Function.update (db.body mediation) id none) }

/-- `EXPIRE queue ttl`. -/
def expireQueue (mediation : String) (ttl : ℕ) : Script Db Unit := do
  let deadline ← deadlineIn ttl
  Script.write fun db =>
    { db with
      queue := Function.update db.queue mediation
        ((db.queue mediation).map fun v => { v with deadline := some deadline }) }

/-- `EXPIRE bytes ttl`. -/
def expireBytes (mediation : String) (ttl : ℕ) : Script Db Unit := do
  let deadline ← deadlineIn ttl
  Script.write fun db =>
    { db with
      bytes := Function.update db.bytes mediation
        ((db.bytes mediation).map fun v => { v with deadline := some deadline }) }

end Store.Redis
