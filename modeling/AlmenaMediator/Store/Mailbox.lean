import AlmenaMediator.Store.Footprint

/-!
# Mailboxes

What a mediation should get: the messages queued for it that no later call acknowledged or removed
with the mediation, oldest first (`mailbox`), read off the history of method calls alone. The
in-process store drops expired messages whenever it looks at a queue, so its queue is the mailbox
only as far as unexpired messages go, and from the latest time any call gave it on (`Holds`). The
counter behind the queue ids is a `u64` that nothing resets; it does not wrap.
-/

namespace Store

/-! ## The messages of a history -/

/-- The message a call queued, if it did, and its mediation. -/
def enqueued : Call StoreCall → List (String × Queued)
  | ⟨.enqueue m recipient message now _, .ok (some id)⟩ => [(m, ⟨id, recipient, now, message⟩)]
  | _ => []

/-- The message a call queued for `m`, if it did. -/
def queuedFor (m : String) (c : Call StoreCall) : List Queued :=
  ((enqueued c).filter fun e => e.1 = m).map Prod.snd

/-- Whether a call discards the message `id` of `m`: it acknowledges the message, or removes `m`. -/
def discards (m id : String) : Call StoreCall → Bool
  | ⟨.remove m' ids, .ok _⟩ => m' == m && ids.contains id
  | ⟨.removeIdleMediations _ _, .ok removed⟩ => removed.contains m
  | _ => false

/-- A call that does not touch the queues queues nothing. -/
theorem enqueued_of_not_touches {c : Call StoreCall} (h : ¬ c.op.Touches .queues) :
    enqueued c = [] := by
  obtain ⟨op, reply⟩ := c
  cases op with
  | enqueue => exact absurd trivial h
  | _ => rfl

/-- A call that does not touch the queues discards nothing. -/
theorem discards_of_not_touches {c : Call StoreCall} (h : ¬ c.op.Touches .queues) (m id : String) :
    discards m id c = false := by
  obtain ⟨op, reply⟩ := c
  cases op with
  | remove | removeIdleMediations => exact absurd trivial h
  | _ => rfl

/-- The messages queued for `m` that no later call discards, oldest first. -/
def mailbox (m : String) : List (Call StoreCall) → List Queued
  | [] => []
  | c :: later =>
    ((queuedFor m c).filter fun q => !later.any (discards m q.id)) ++ mailbox m later

/-- The ids given to messages, in the order they were queued. -/
def queuedIds (calls : List (Call StoreCall)) : List String :=
  (calls.flatMap enqueued).map fun e => e.2.id

/-- One more call discards messages, and may queue one. -/
theorem mailbox_snoc (m : String) (calls : List (Call StoreCall)) (c : Call StoreCall) :
    mailbox m (calls ++ [c]) =
      ((mailbox m calls).filter fun q => !discards m q.id c) ++ queuedFor m c := by
  induction calls with
  | nil => simp [mailbox]
  | cons first later ih =>
    rw [List.cons_append, mailbox, mailbox, ih, List.filter_append, ← List.append_assoc,
      List.filter_filter]
    congr 2
    refine List.filter_congr fun q _ => ?_
    rw [List.any_append, List.any_cons, List.any_nil, Bool.or_false, Bool.not_or, Bool.and_comm]

/-- A call that neither queues nor discards leaves every mailbox as it is. -/
theorem mailbox_snoc_same {c : Call StoreCall} (hqueues : enqueued c = [])
    (hdiscards : ∀ m id, discards m id c = false) (m : String) (calls : List (Call StoreCall)) :
    mailbox m (calls ++ [c]) = mailbox m calls := by
  simp [mailbox_snoc, queuedFor, hqueues, hdiscards]

/-- One more call adds the id that it queued, if it queued a message. -/
theorem queuedIds_snoc (calls : List (Call StoreCall)) (c : Call StoreCall) :
    queuedIds (calls ++ [c]) = queuedIds calls ++ (enqueued c).map fun e => e.2.id := by
  simp [queuedIds]

/-! ## Expiry -/

namespace Inner

variable {now later ttlSecs : ℕ} {queue : List Queued}

/-- What expired stays expired. -/
theorem unexpired_unexpired (h : now ≤ later) :
    unexpired later ttlSecs (unexpired now ttlSecs queue) = unexpired later ttlSecs queue := by
  simp only [unexpired, List.filter_filter]
  refine List.filter_congr fun q _ => ?_
  simp only [Bool.and_eq_left_iff_imp, decide_eq_true_eq]
  omega

/-- Dropping the expired entries of two queues in a row drops them in each. -/
theorem unexpired_append (queue' : List Queued) : unexpired now ttlSecs (queue ++ queue') =
    unexpired now ttlSecs queue ++ unexpired now ttlSecs queue' := List.filter_append ..

/-- Dropping the expired entries commutes with any other filter. -/
theorem unexpired_filter (p : Queued → Bool) :
    unexpired now ttlSecs (queue.filter p) = (unexpired now ttlSecs queue).filter p := by
  simp only [unexpired, List.filter_filter, Bool.and_comm]

/-- Dropping expired messages drops none that are unexpired later. -/
theorem unexpired_expire (inner : Inner) (m m' : String) (h : now ≤ later) :
    unexpired later ttlSecs ((inner.expire m now ttlSecs).queues m') =
      unexpired later ttlSecs (inner.queues m') := by
  by_cases hm : m' = m
  · subst hm
    simpa [expire] using unexpired_unexpired h
  · simp [expire, hm]

/-- An `enqueue` drops what expired, and then adds the message under a new id or refuses it. -/
theorem enqueue_cases (inner : Inner) (m recipient message : String) (now : ℕ)
    (limits : QueueLimits) : (inner.enqueue m recipient message now limits).2.seq = inner.seq + 1 ∧
    ((inner.enqueue m recipient message now limits).1 = none ∧
        (inner.enqueue m recipient message now limits).2.queues =
          (inner.expire m now limits.ttlSecs).queues ∨
      (inner.enqueue m recipient message now limits).1 =
          some (queueId (now * 1000) (inner.seq + 1)) ∧
        (inner.enqueue m recipient message now limits).2.queues =
          Function.update inner.queues m (unexpired now limits.ttlSecs (inner.queues m) ++
            [⟨queueId (now * 1000) (inner.seq + 1), recipient, now, message⟩])) := by
  unfold enqueue
  dsimp only
  split
  · exact ⟨rfl, .inl ⟨rfl, rfl⟩⟩
  · refine ⟨rfl, .inr ⟨rfl, ?_⟩⟩
    simp [expire]

/-- Removing a list of mediations empties their queues and leaves the other queues. -/
theorem foldl_removeMediation_queues (removed : List String) (inner : Inner) (m : String) :
    (removed.foldl removeMediation inner).queues m =
      if m ∈ removed then [] else inner.queues m := by
  induction removed generalizing inner with
  | nil => rfl
  | cons first rest ih =>
    rw [List.foldl_cons, ih]
    by_cases hfirst : m = first <;> by_cases hrest : m ∈ rest <;>
      simp [removeMediation, hfirst, hrest, Function.update_of_ne]

/-- Removing mediations leaves the sequence number as it was. -/
theorem foldl_removeMediation_seq (removed : List String) (inner : Inner) :
    (removed.foldl removeMediation inner).seq = inner.seq := by
  induction removed generalizing inner with
  | nil => rfl
  | cons first rest ih => exact ih _

end Inner

/-! ## The invariant -/

/-- The method is given the TTL `ttlSecs`, and no time after `clock` where messages expire. -/
def Op.Timely (ttlSecs clock : ℕ) : Op → Prop
  | enqueue _ _ _ now limits => now ≤ clock ∧ limits.ttlSecs = ttlSecs
  | summary _ _ now ttl | peek _ _ _ now ttl => now ≤ clock ∧ ttl = ttlSecs
  | _ => True

/-- After `calls`, none given a time after `clock`: from `clock` on the unexpired messages are those
of the mailboxes, and every message has its own id. -/
structure Holds (ttlSecs clock : ℕ) (calls : List (Call StoreCall)) (inner : Inner) : Prop where
  agree : ∀ m now, clock ≤ now → Inner.unexpired now ttlSecs (inner.queues m) =
    Inner.unexpired now ttlSecs (mailbox m calls)
  issued : ∀ id ∈ queuedIds calls, ∃ ms seq, id = queueId ms seq ∧ seq ≤ inner.seq
  nodup : (queuedIds calls).Nodup

namespace Holds

variable {ttlSecs clock : ℕ} {calls : List (Call StoreCall)} {inner inner' : Inner}
  {c : Call StoreCall}

/-- The empty store agrees with the empty list of calls. -/
theorem start : Holds ttlSecs clock [] Inner.empty where
  agree _ _ _ := rfl
  issued := by simp [queuedIds]
  nodup := List.nodup_nil

/-- The agreement of a store with its calls lasts as time goes on. -/
theorem later (h : Holds ttlSecs clock calls inner) {clock' : ℕ} (hclock : clock ≤ clock') :
    Holds ttlSecs clock' calls inner where
  agree m now hnow := h.agree m now (hclock.trans hnow)
  issued := h.issued
  nodup := h.nodup

/-- A call that queues nothing issues no id. -/
theorem quiet (h : Holds ttlSecs clock calls inner) (hqueues : enqueued c = [])
    (hseq : inner'.seq = inner.seq)
    (hagree : ∀ m now, clock ≤ now → Inner.unexpired now ttlSecs (inner'.queues m) =
      (Inner.unexpired now ttlSecs (inner.queues m)).filter fun q => !discards m q.id c) :
    Holds ttlSecs clock (calls ++ [c]) inner' where
  agree m now hnow := by
    rw [hagree m now hnow, h.agree m now hnow, mailbox_snoc, queuedFor, hqueues,
      ← Inner.unexpired_filter]
    simp
  issued := by
    simpa [queuedIds_snoc, hqueues, hseq] using h.issued
  nodup := by
    simpa [queuedIds_snoc, hqueues] using h.nodup

/-- A call that does not touch queues. -/
theorem untouched (h : Holds ttlSecs clock calls inner) (hqueues : enqueued c = [])
    (hdiscards : ∀ m id, discards m id c = false) (hseq : inner'.seq = inner.seq)
    (hsame : inner'.queues = inner.queues) : Holds ttlSecs clock (calls ++ [c]) inner' :=
  h.quiet hqueues hseq fun m now _ => by simp [hsame, hdiscards]

/-- Queueing a message adds it to the queue and to the calls alike. -/
theorem enqueue (h : Holds ttlSecs clock calls inner) {m recipient message : String} {now : ℕ}
    {limits : QueueLimits} (hnow : now ≤ clock) (httl : limits.ttlSecs = ttlSecs) :
    Holds ttlSecs clock
      (calls ++ [⟨.enqueue m recipient message now limits,
        .ok (inner.enqueue m recipient message now limits).1⟩])
      (inner.enqueue m recipient message now limits).2 := by
  subst httl
  obtain ⟨hseq, ⟨hrefused, hqueues⟩ | ⟨hadded, hqueues⟩⟩ :=
    inner.enqueue_cases m recipient message now limits
  -- refused: the queue is swept, and nothing is queued
  · rw [hrefused]
    refine ⟨fun m' later hlater => ?_, fun id hid => ?_, ?_⟩
    · rw [hqueues, Inner.unexpired_expire _ m m' (hnow.trans hlater),
        mailbox_snoc_same rfl fun _ _ => rfl]
      exact h.agree m' later hlater
    · obtain ⟨ms, seq, rfl, hold⟩ := h.issued id (by simpa [queuedIds_snoc, enqueued] using hid)
      exact ⟨ms, seq, rfl, by omega⟩
    · simpa [queuedIds_snoc, enqueued] using h.nodup
  -- added: the message goes to the end of the queue and of the calls
  · rw [hadded]
    refine ⟨fun m' later hlater => ?_, fun id hid => ?_, ?_⟩
    · have hagree := h.agree m' later hlater
      have hkept : ∀ q ∈ mailbox m' calls, (!discards m' q.id
          ⟨.enqueue m recipient message now limits,
            .ok (some (queueId (now * 1000) (inner.seq + 1)))⟩) = true := fun _ _ => rfl
      rw [hqueues, mailbox_snoc, Inner.unexpired_append, List.filter_eq_self.mpr hkept]
      by_cases hm : m' = m
      · subst hm
        rw [Function.update_self, Inner.unexpired_append,
          Inner.unexpired_unexpired (hnow.trans hlater), hagree]
        simp [queuedFor, enqueued]
      · rw [Function.update_of_ne hm, hagree]
        simp [queuedFor, enqueued, Ne.symm hm, Inner.unexpired]
    · rw [queuedIds_snoc, List.mem_append] at hid
      rcases hid with hid | hid
      · obtain ⟨ms, seq, rfl, hold⟩ := h.issued id hid
        exact ⟨ms, seq, rfl, by omega⟩
      · exact ⟨now * 1000, inner.seq + 1, by simpa [enqueued] using hid, hseq.ge⟩
    · rw [queuedIds_snoc, List.nodup_append]
      refine ⟨h.nodup, by simp [enqueued], fun id hid id' hid' heq => ?_⟩
      -- an id issued before has a lower sequence number
      obtain ⟨ms, seq, rfl, hold⟩ := h.issued id hid
      have hnew : queueId ms seq = queueId (now * 1000) (inner.seq + 1) := by
        simpa [enqueued, ← heq] using hid'
      rw [queueId_inj] at hnew
      omega

/-- Every method call keeps the queues those of the mailboxes. -/
theorem step (h : Holds ttlSecs clock calls inner) (hstep : MemoryStep inner c inner')
    (htimely : c.op.Timely ttlSecs clock) : Holds ttlSecs clock (calls ++ [c]) inner' := by
  by_cases htouches : c.op.Touches .queues
  -- a call that does not touch the queues changes neither side
  swap
  · obtain ⟨hqueues, hseq⟩ := hstep.sameArea htouches
    exact h.untouched (enqueued_of_not_touches htouches) (discards_of_not_touches htouches)
      hseq hqueues
  obtain ⟨order, -, hstep⟩ := hstep
  obtain ⟨op, reply⟩ := c
  obtain ⟨rfl, rfl⟩ := hstep.eq
  cases op with
  | enqueue m recipient message now limits => exact h.enqueue htimely.1 htimely.2
  | summary m recipient now ttl =>
    obtain ⟨hnow, rfl⟩ := htimely
    -- a sweep drops what would not be due later either
    refine h.quiet rfl rfl fun m' later hlater => ?_
    rw [List.filter_eq_self.mpr (by simp [discards])]
    exact Inner.unexpired_expire inner m m' (hnow.trans hlater)
  | peek m recipient limit now ttl =>
    obtain ⟨hnow, rfl⟩ := htimely
    refine h.quiet rfl rfl fun m' later hlater => ?_
    rw [List.filter_eq_self.mpr (by simp [discards])]
    exact Inner.unexpired_expire inner m m' (hnow.trans hlater)
  | remove m ids =>
    refine h.quiet rfl rfl fun m' later _ => ?_
    by_cases hm : m' = m
    · subst hm
      simpa [memory, Inner.remove, discards] using Inner.unexpired_filter _
    · have hne : (m == m') = false := by simpa using Ne.symm hm
      simp [memory, Inner.remove, discards, hm, hne]
  | removeIdleMediations cutoff limit =>
    refine h.quiet rfl (Inner.foldl_removeMediation_seq _ _) fun m later _ => ?_
    simp only [memory, Inner.removeIdleMediations, Inner.foldl_removeMediation_queues, discards]
    split <;> simp_all [Inner.unexpired]
  | _ => exact htouches.elim

/-- A peek not before `clock` reads the mailbox. -/
theorem peek_eq (h : Holds ttlSecs clock calls inner) {now : ℕ} (hnow : clock ≤ now) (m : String)
    (recipient : Option String) (limit : ℕ) :
    (inner.peek m recipient limit now ttlSecs).1 =
      (Inner.matching recipient (Inner.unexpired now ttlSecs (mailbox m calls))).take limit := by
  simp [Inner.peek, Inner.expire, h.agree m now hnow]

end Holds

end Store
