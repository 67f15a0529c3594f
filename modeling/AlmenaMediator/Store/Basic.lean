import AlmenaMediator.Library.Program
import AlmenaMediator.Library.Splitting
import Mathlib.Data.List.Basic

/-!
# The store interface

`store/mod.rs`: what the mediator needs from storage. The `Store` trait is the interface
`StoreCall`; an implementation answers its operations. Times are epoch seconds; they stay below
`2^64 / 1000`, so that no multiplication by a thousand overflows. Storage failures are texts.
-/

namespace Store

/-- Result of registering a recipient DID. -/
inductive AddRecipient
  | added
  /-- Already registered by this mediation. -/
  | alreadyYours
  /-- Registered by another mediation. -/
  | takenByOther
  /-- The mediation has as many recipient DIDs as it may. -/
  | limitReached
  deriving DecidableEq, Repr

/-- Result of removing a recipient DID. -/
inductive RemoveRecipient
  | removed
  | notRegistered
  /-- Registered by another mediation. -/
  | notYours
  deriving DecidableEq, Repr

/-- A queued message. -/
structure Queued where
  id : String
  recipient : String
  /-- Epoch seconds. -/
  received : ℕ
  message : String
  deriving DecidableEq, Repr

/-- Counts over a queue, or the part of it for one recipient. -/
structure QueueSummary where
  count : ℕ
  /-- Epoch seconds of the oldest message. -/
  oldest : Option ℕ
  /-- Epoch seconds of the newest message. -/
  newest : Option ℕ
  totalBytes : ℕ
  deriving DecidableEq, Repr

/-- A `forward` payload waiting to be relayed to another mediator again. -/
structure PendingRelay where
  /-- Stable for the same payload and destination. -/
  id : String
  uri : String
  message : String
  /-- Retries already made. -/
  retries : ℕ
  deriving DecidableEq, Repr

/-- Queue limits, from the configuration. -/
structure QueueLimits where
  /-- Messages older than this (seconds) are dropped. -/
  ttlSecs : ℕ
  /-- Per mediation. -/
  maxMessages : ℕ
  /-- Bytes of queued messages per mediation. -/
  maxBytes : ℕ
  deriving DecidableEq, Repr

/-- A push service a device token belongs to (`push/mod.rs`). -/
inductive Service
  | fcm
  | apns
  deriving DecidableEq, Repr

/-- A device registered for wake-ups (`push/mod.rs`). -/
structure Device where
  token : String
  /-- `device_platform` of the FCM protocol; none for APNs. -/
  platform : Option String
  deriving DecidableEq, Repr

/-- The methods of the `Store` trait that read or change its state. -/
inductive Op
  | grantMediation (mediation : String) (now : ℕ)
  | touchMediation (mediation : String) (now : ℕ)
  | removeIdleMediations (cutoff limit : ℕ)
  | hasMediation (mediation : String)
  | addRecipient (mediation recipient : String) (max : ℕ)
  | removeRecipient (mediation recipient : String)
  | recipients (mediation : String)
  | mediationOf (recipient : String)
  | enqueue (mediation recipient message : String) (now : ℕ) (limits : QueueLimits)
  | summary (mediation : String) (recipient : Option String) (now ttlSecs : ℕ)
  | peek (mediation : String) (recipient : Option String) (limit now ttlSecs : ℕ)
  | remove (mediation : String) (ids : List String)
  | hit (key : String) (windowSecs now : ℕ)
  | scheduleRelay (relay : PendingRelay) (due maxPending : ℕ)
  | dueRelays (now leaseSecs limit : ℕ)
  | finishRelay (id : String)
  | setDevice (mediation : String) (service : Service) (device : Option Device)
  | devices (mediation : String)
  | removeDevice (mediation : String) (service : Service) (token : String)
  | claimPush (mediation : String) (now holdSecs : ℕ)
  | releasePush (mediation : String) (now minIntervalSecs : ℕ)
  deriving DecidableEq, Repr

/-- What a method answers when storage does not fail. -/
@[reducible] def Op.Answer : Op → Type
  | grantMediation .. | touchMediation .. | finishRelay .. | setDevice .. | removeDevice ..
  | releasePush .. => Unit
  | removeIdleMediations .. | recipients .. => List String
  | hasMediation .. | scheduleRelay .. | claimPush .. => Bool
  | addRecipient .. => AddRecipient
  | removeRecipient .. => RemoveRecipient
  | mediationOf .. | enqueue .. => Option String
  | summary .. => QueueSummary
  | peek .. => List Queued
  | remove .. | hit .. => ℕ
  | dueRelays .. => List PendingRelay
  | devices .. => List (Service × Device)

/-- A storage failure (`anyhow::Error`). -/
abbrev StoreError := String

/-- The `Store` trait. -/
abbrev StoreCall : Interface where
  Op := Op
  Reply op := Except StoreError op.Answer

/-! ## Queue ids -/

/-- The number a decimal text stands for. -/
def decimal (digits : List Char) : Option ℕ :=
  if digits ≠ [] ∧ digits.all Char.isDigit then some (Nat.ofDigitChars 10 digits 0) else none

/-- Reading the decimal digits of a number as a decimal number gives that number back. -/
@[simp] theorem decimal_toDigits (n : ℕ) : decimal (Nat.toDigits 10 n) = some n := by
  have hdigits : (Nat.toDigits 10 n).all Char.isDigit := by
    rw [List.all_eq_true]
    exact fun c hc => Nat.isDigit_of_mem_toDigits (by decide) (by decide) hc
  rw [decimal, if_pos ⟨Nat.toDigits_ne_nil, hdigits⟩, Nat.ofDigitChars_ten_toDigits]

/-- Whether `id` has the `<ms>-<seq>` shape of a queue id. -/
def isQueueId (id : String) : Bool :=
  match Splitting.splitOnce '-' id.toList with
  | some (ms, seq) => (decimal ms).isSome && (decimal seq).isSome
  | none => false

/-- Epoch milliseconds of a queue id. -/
def idMillis (id : String) : ℕ :=
  match Splitting.splitOnce '-' id.toList with
  | some (ms, _) => (decimal ms).getD 0
  | none => 0

/-- The queue id `<ms>-<seq>`. -/
def queueId (ms seq : ℕ) : String := toString ms ++ "-" ++ toString seq

/-- No decimal digit is a dash, so the first dash of a queue id is the one between its two numbers.
-/
theorem dash_notMem_toDigits (n : ℕ) : '-' ∉ Nat.toDigits 10 n := by
  intro h
  have := Nat.isDigit_of_mem_toDigits (by decide) (by decide) h
  exact absurd this (by decide)

/-- A queue id splits at its dash into the digits of its milliseconds and those of its sequence
number. -/
theorem splitOnce_queueId (ms seq : ℕ) :
    Splitting.splitOnce '-' (queueId ms seq).toList =
      some (Nat.toDigits 10 ms, Nat.toDigits 10 seq) := by
  have h : (queueId ms seq).toList = Nat.toDigits 10 ms ++ '-' :: Nat.toDigits 10 seq := by
    simp [queueId, String.toList_append, Nat.toString_eq_repr, Nat.toList_repr]
  rw [h, Splitting.splitOnce_append (dash_notMem_toDigits ms)]

/-- The milliseconds read from a queue id are those it was made with. -/
@[simp] theorem idMillis_queueId (ms seq : ℕ) : idMillis (queueId ms seq) = ms := by
  simp [idMillis, splitOnce_queueId]

/-- Every id a store makes has the form of a queue id. -/
@[simp] theorem isQueueId_queueId (ms seq : ℕ) : isQueueId (queueId ms seq) := by
  simp [isQueueId, splitOnce_queueId]

/-- A queue id determines its two numbers. -/
theorem queueId_inj {ms seq ms' seq' : ℕ} :
    queueId ms seq = queueId ms' seq' ↔ ms = ms' ∧ seq = seq' := by
  constructor
  · intro h
    have hsplit := splitOnce_queueId ms seq
    rw [h, splitOnce_queueId, Option.some_inj, Prod.mk.injEq] at hsplit
    have hms := congrArg decimal hsplit.1
    have hseq := congrArg decimal hsplit.2
    simp only [decimal_toDigits, Option.some_inj] at hms hseq
    exact ⟨hms.symm, hseq.symm⟩
  · rintro ⟨rfl, rfl⟩
    rfl

end Store
