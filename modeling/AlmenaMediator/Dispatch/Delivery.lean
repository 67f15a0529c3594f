import AlmenaMediator.Dispatch.Pickup
import AlmenaMediator.Store.Redis.Bodies

/-!
# Status and delivery over Redis

A `delivery-request` answers with the messages it finds, and with a status where it finds none. Over
`RedisStore` the two see the same messages exactly when no entry within the TTL has lost its body.
-/

namespace Dispatch

open Didcomm
open Store.Redis

/-- Surroundings over Redis at one moment: the clock stands at `now` and nobody else calls the
store. -/
def moment (others : (e : Effect) → e.Reply) (now : ℕ) : Handler Surroundings Db := fun e db =>
  match e with
  | .store op => redis op db
  | .now => (now, db)
  | e => (others e, db)

variable {others : (e : Effect) → e.Reply} {now : ℕ} {db db' : Db} {m : String}
  {recipient : Option String}

/-- A call of the store and what comes after it. -/
theorem run_store_bind {α : Type} (op : Store.Op) (f : op.Answer → StoreTask α) (db : Db) :
    (store op >>= f).run.run (moment others now) db = match redis op db with
      | (.ok a, db') => (f a).run.run (moment others now) db'
      | (.error e, db') => (.error e, db') := by
  have hstore : (store op).run.run (moment others now) db = redis op db := rfl
  rw [ExceptT.run_bind, Program.run_bind, hstore]
  rcases redis op db with ⟨a | a, db'⟩ <;> rfl

variable (others) in
/-- The status of a queue, at that moment. -/
theorem run_status (mediator : Mediator) (request : Message) (live : Bool)
    (summary : Store.QueueSummary)
    (h : redis (.summary m recipient now mediator.limits.queue.ttlSecs) db = (.ok summary, db')) :
    ∃ id, (Pickup.status mediator m recipient request live).run.run (moment others now) db =
      (.ok (.reply ((Message.new id now statusType
        (Pickup.statusBody summary recipient now live)).replyTo request)), db') := by
  refine ⟨others .uuid, ?_⟩
  rw [Pickup.status, (Program.run_lift_bind _ _ _).1]
  change (store (.summary m recipient now mediator.limits.queue.ttlSecs) >>= _).run.run _ db = _
  rw [run_store_bind, h]
  dsimp only
  rw [(Program.run_lift_bind _ _ _).1]
  rfl

/-- Attaching queued messages does not change the type of a delivery. -/
theorem foldl_attach_type (queued : List Store.Queued) (delivery : Message) :
    (queued.foldl Pickup.attach delivery).type_ = delivery.type_ := by
  induction queued generalizing delivery with
  | nil => rfl
  | cons q rest ih => exact ih _

/-- A `delivery-request` is answered, and with a status only when there is nothing to deliver; the
status says so. -/
def StatusWhenEmpty (db : Db) (m : String) (recipient : Option String) (now ttlSecs : ℕ) : Prop :=
  ∀ (mediator : Mediator) (message : Message) (live : Bool) (others : (e : Effect) → e.Reply),
    mediator.limits.queue.ttlSecs = ttlSecs → ∃ handled db',
      (Pickup.deliveryRequest mediator m recipient message live).run.run (moment others now) db =
        (.ok handled, db') ∧
      ∀ reply, handled = .reply reply → reply.type_ = statusType →
        deliverable db m recipient now ttlSecs = [] ∧
          reply.body.get "message_count" = some (.ofNat 0)

/-- Where the entries within the TTL have their bodies, an empty delivery means an empty queue. -/
theorem statusWhenEmpty {ttlSecs : ℕ} (hlt : ttlSecs < now)
    (hbodies : ∀ e ∈ waiting db m recipient now ttlSecs, (db.body m e.id.text).isSome) :
    StatusWhenEmpty db m recipient now ttlSecs := by
  rintro mediator message live others rfl
  unfold Pickup.deliveryRequest
  split
  · exact ⟨.problem .invalidBody, db, rfl, fun _ h => nomatch h⟩
  · exact ⟨.problem .invalidBody, db, rfl, fun _ h => nomatch h⟩
  rename_i limit hzero _
  rw [(Program.run_lift_bind _ _ _).1]
  change ∃ handled db', (store (.peek m recipient (min limit maxBatch) now
    mediator.limits.queue.ttlSecs) >>= _).run.run _ db = _ ∧ _
  rw [run_store_bind]
  by_cases hnothing : waiting db m recipient now mediator.limits.queue.ttlSecs = []
  · -- the status that follows counts an empty queue
    obtain ⟨db₁, summary, hpeek, hsummary, hcount⟩ :=
      run_peek_nothing (min limit maxBatch) hlt hnothing
    obtain ⟨id, hstatus⟩ := run_status others mediator message live summary
      (Prod.ext hsummary rfl : redis _ db₁ = (_, _))
    rw [hpeek]
    dsimp only
    rw [if_pos rfl, hstatus]
    refine ⟨_, _, rfl, fun reply hreply _ => ⟨by rw [deliverable, hnothing]; rfl, ?_⟩⟩
    obtain rfl := Handled.reply.inj hreply
    change some (Value.ofNat summary.count) = _
    rw [hcount]
  · -- a message is found, and what goes back is a delivery
    have hpeek := run_peek db m recipient (min limit maxBatch) hlt hbodies
    rcases hrun : redis (.peek m recipient (min limit maxBatch) now
      mediator.limits.queue.ttlSecs) db with ⟨queued, db₁⟩
    rw [hrun] at hpeek
    obtain rfl : queued = _ := hpeek
    dsimp only
    have hfound : deliverable db m recipient now mediator.limits.queue.ttlSecs ≠ [] := fun hnone =>
      hnothing (List.eq_nil_of_length_eq_zero (by rw [← deliverable_length hbodies, hnone]; rfl))
    have hlimit : limit ≠ 0 := hzero
    rw [if_neg (by simp [hfound, hlimit, maxBatch]), (Program.run_lift_bind _ _ _).1]
    refine ⟨_, _, rfl, fun reply hreply htype => ?_⟩
    obtain rfl := Handled.reply.inj hreply
    rw [foldl_attach_type] at htype
    exact absurd htype (by decide : deliveryType ≠ statusType)

/-- Over Redis, in any state, `peek` returns the oldest messages that can be delivered, `summary`
counts all of them, and a `delivery-request` answers with a status only when there are none, exactly
when the TTL is below the time and every entry within it that matches still has its body. -/
theorem status_and_delivery_agree_iff (db : Db) (m : String) (recipient : Option String)
    (limit now ttlSecs : ℕ) :
    Agrees db m recipient limit now ttlSecs ∧ StatusWhenEmpty db m recipient now ttlSecs ↔
      ttlSecs < now ∧ ∀ e ∈ waiting db m recipient now ttlSecs, (db.body m e.id.text).isSome := by
  refine ⟨fun h => (agrees_iff db m recipient limit now ttlSecs).mp h.1, fun h => ⟨?_, ?_⟩⟩
  · exact (agrees_iff db m recipient limit now ttlSecs).mpr h
  · exact statusWhenEmpty h.1 h.2

/-- Two messages queued thirty seconds apart; when the body of the first has just expired, its entry
is still within the TTL, `peek` with a limit of 1 finds nothing and `summary` counts two. -/
theorem status_and_delivery_differ :
    ¬ ∀ clock calls db, Transition.Run RedisStep (.empty clock) calls db →
    ∀ m recipient limit ttlSecs, 0 < ttlSecs → ttlSecs < db.clock / 1000 →
      Agrees db m recipient limit (db.clock / 1000) ttlSecs := by
  intro h
  let enqueue (now : ℕ) := Store.Op.enqueue "did:example:m" "did:example:m"
    "hello" now ⟨60, 10, 100⟩
  let first := (redis (enqueue 1000) ((Db.empty 1000500).advance 0)).2
  let second := (redis (enqueue 1030) (first.advance 29500)).2
  have hrun : Transition.Run RedisStep (.empty 1000500) _
      (redis (.hasMediation "did:example:m") (second.advance 30600)).2 :=
    .snoc (.snoc (.single ⟨0, Program.handled redis (enqueue 1000) _⟩)
      ⟨29500, Program.handled redis (enqueue 1030) _⟩) ⟨30600, Program.handled redis _ _⟩
  have hpeek := (h _ _ _ hrun "did:example:m" none 1 60 (by decide) (by decide)).peek
  revert hpeek
  decide

end Dispatch
