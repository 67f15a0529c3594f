import AlmenaMediator.Store.Idle
import AlmenaMediator.Store.Redis.Estates
import AlmenaMediator.Store.Relays

/-!
# Idle mediations in Redis

A cleanup of `RedisStore` lists idle mediations with one request and removes them with one script
each; other clients come in between. The script looks at the time again: it refuses a mediation that
was active since (`removeMediation_answer`), so that a batch may take less than it listed.
-/

namespace Store.Redis

open Script

variable {cutoff limit : ℕ} {m : String}

namespace Db

/-- The mediations last active at or before the cutoff. -/
def idle (cutoff : ℕ) (db : Db) : Finset String :=
  ((db.seen.filter fun e => e.1 ≤ cutoff).map Prod.snd).toFinset

/-- Each mediation has one record of when it was last active. -/
def SeenOnce (db : Db) : Prop := Ranked db.seen

/-- The mediation has nothing. -/
structure Gone (m : String) (db : Db) : Prop where
  grant : db.granted m = none
  seen : ∀ at_, (at_, m) ∉ db.seen
  recipients : db.recipients m = []
  owners : ∀ r, db.owner r ≠ some m
  queue : db.queue m = none
  bytes : db.bytes m = none
  devices : ∀ service, db.devices m service = none
  pushMarker : db.pushSent m = none

variable {db db' : Db}

/-- A mediation is idle by the cutoff when the sorted set scores it at the cutoff or below. -/
theorem mem_idle : m ∈ db.idle cutoff ↔ ∃ at_ ≤ cutoff, (at_, m) ∈ db.seen := by
  simp only [idle, List.mem_toFinset, List.mem_map, List.mem_filter, decide_eq_true_eq, Prod.exists]
  constructor
  · rintro ⟨at_, _, ⟨hmem, hat⟩, rfl⟩
    exact ⟨at_, hat, hmem⟩
  · rintro ⟨at_, hat, hmem⟩
    exact ⟨at_, m, ⟨hmem, hat⟩, rfl⟩

end Db

/-! ## What requests do to the records -/

/-- The score of a member is the one it has. -/
theorem zscore_of_mem {set : ZSet} {at_ : ℕ} (honce : (set.map Prod.snd).Nodup)
    (hmem : (at_, m) ∈ set) : zscore m set = some at_ := by
  induction set with
  | nil => exact absurd hmem List.not_mem_nil
  | cons first rest ih =>
    rw [List.map_cons, List.nodup_cons] at honce
    rcases List.mem_cons.mp hmem with rfl | hrest
    · simp [zscore]
    · have hne : first.2 ≠ m := fun heq =>
        honce.1 (heq ▸ List.mem_map_of_mem (f := Prod.snd) hrest)
      rw [← ih honce.2 hrest, zscore, zscore, List.find?_cons_of_neg (by simpa using hne)]

namespace Db

variable {db db' : Db} {label : Option (Call ServerCall)}

/-- A request grants or touches a mediation, or removes one; else nothing is recorded. -/
theorem seen_of_step (hstep : ServerStep db label db') :
    db'.seen = db.seen ∨
    (∃ m now reply, (label = some ⟨.grant m now, reply⟩ ∨ label = some ⟨.touch m now, reply⟩) ∧
      db'.seen = zadd now m db.seen) ∨
    ∃ m, db'.seen = zrem m db.seen := by
  cases hstep with
  | time ms => exact .inl rfl
  | @request _ c handled =>
    obtain ⟨request, reply⟩ := c
    obtain ⟨rfl, rfl⟩ := Program.Handled.eq handled
    by_cases htouches : request.Touches .seen
    -- a request that does not touch the contacts leaves them
    swap
    · exact .inl (server_sameArea htouches db)
    cases request with
    | grant m now => exact .inr (.inl ⟨m, now, _, .inl rfl, rfl⟩)
    | touch m now =>
      change ((touch m now).exec db).2.seen = _ ∨ _
      by_cases hgranted : (db.granted m).isSome
      · right
        left
        refine ⟨m, now, _, .inr rfl, ?_⟩
        change ((touch m now).exec db).2.seen = _
        simp only [touch, exec_bind, exec_read, hgranted, ↓reduceIte, exec_write]
      · left
        simp only [touch, exec_bind, exec_read, hgranted, Bool.false_eq_true, ↓reduceIte, exec_pure]
    | removeMediation m cutoff =>
      change ((removeMediation m cutoff).exec db).2.seen = _ ∨ _ ∨ ∃ m',
        ((removeMediation m cutoff).exec db).2.seen = _
      rcases exec_removeMediation m cutoff db with ⟨-, heq⟩ | ⟨-, body, heq⟩
      · exact .inl (by rw [heq])
      · exact .inr (.inr ⟨m, by rw [heq]⟩)
    | _ => exact htouches.elim

/-- Each mediation keeps one record. -/
theorem SeenOnce.step (hstep : ServerStep db label db') (h : db.SeenOnce) : db'.SeenOnce := by
  rcases seen_of_step hstep with heq | ⟨m, now, reply, -, heq⟩ | ⟨m, heq⟩
  · rwa [SeenOnce, heq]
  · rw [SeenOnce, heq]
    exact Ranked.zadd h now m
  · rw [SeenOnce, heq]
    exact Ranked.zrem h m

/-- The step makes no mediation active at or before the cutoff. -/
def Fresh (cutoff : ℕ) : Option (Call ServerCall) → Prop
  | some ⟨.grant _ now, _⟩ | some ⟨.touch _ now, _⟩ => cutoff < now
  | _ => True

/-- No mediation becomes idle while mediations are only active after the cutoff. -/
theorem idle_subset (hstep : ServerStep db label db') (hfresh : Fresh cutoff label) :
    db'.idle cutoff ⊆ db.idle cutoff := by
  intro m hm
  obtain ⟨at_, hat, hmem⟩ := mem_idle.mp hm
  refine mem_idle.mpr ⟨at_, hat, ?_⟩
  rcases seen_of_step hstep with heq | ⟨m', now, reply, hop, heq⟩ | ⟨m', heq⟩
  · rwa [heq] at hmem
  · have hnow : cutoff < now := by
      rcases hop with rfl | rfl <;> exact hfresh
    rw [heq, mem_zadd] at hmem
    rcases hmem with hnew | ⟨hold, -⟩
    · -- the record is the new one, which is after the cutoff
      obtain rfl := (Prod.mk.inj hnew).1
      exact absurd hnow (Nat.not_lt.mpr hat)
    · exact hold
  · rw [heq, mem_zrem] at hmem
    exact hmem.1

/-! ## A removal -/

section Removal

variable {reply : Except StoreError ℕ}

/-- What the script looks at is when the mediation was last active. -/
theorem zscore_after_iff (honce : db.SeenOnce) :
    (zscore m db.seen).any (fun at_ => cutoff < at_) ↔ ∃ at_ > cutoff, (at_, m) ∈ db.seen := by
  constructor
  · intro h
    obtain ⟨at_, hscore, hafter⟩ := Option.any_eq_true .. |>.mp h
    obtain ⟨e, hfind, rfl⟩ := Option.map_eq_some_iff.mp hscore
    have hmem := List.mem_of_find?_eq_some hfind
    obtain rfl : e.2 = m := by simpa using List.find?_some hfind
    exact ⟨e.1, by simpa using hafter, hmem⟩
  · rintro ⟨at_, hafter, hmem⟩
    rw [zscore_of_mem honce.members hmem]
    simpa using hafter

/-- The script refuses a mediation active after the cutoff, and changes nothing then; it removes any
other with all it has, and the others keep what they have. -/
theorem removeMediation_answer (honce : db.SeenOnce) (hlisted : db.OwnersListed)
    (hstep : ServerStep db (some ⟨.removeMediation m cutoff, reply⟩) db') :
    (reply = .ok 0 ∧ db' = db ∧ ∃ at_ > cutoff, (at_, m) ∈ db.seen) ∨
    (reply = .ok 1 ∧ (∀ at_, (at_, m) ∈ db.seen → at_ ≤ cutoff) ∧ db'.Gone m ∧
      (∀ e ∈ db.entries m, db'.body m e.id.text = none) ∧
      ∀ m', m' ≠ m → ∀ part, db.Same part m' db') := by
  cases hstep with
  | request handled =>
    have hexec : (removeMediation m cutoff).exec db = (reply, db') := handled
    rw [exec_removeMediation_eq] at hexec
    split at hexec
    -- the mediation was seen after the cutoff and stays
    · rename_i hseen
      obtain ⟨rfl, rfl⟩ := Prod.mk.inj hexec
      exact .inl ⟨rfl, rfl, (zscore_after_iff honce).mp hseen⟩
    -- it is idle: all its keys go
    · rename_i hidle
      obtain ⟨rfl, rfl⟩ := Prod.mk.inj hexec
      right
      refine ⟨rfl, fun at_ hmem => ?_, ⟨Function.update_self .., fun at_ hmem => ?_,
        Function.update_self .., fun r howner =>
          ?_, Function.update_self .., Function.update_self .., fun service => by
            simp, Function.update_self ..⟩, fun e he => ?_, fun m' hm part => ?_⟩
      · by_contra hafter
        exact hidle ((zscore_after_iff honce).mpr ⟨at_, Nat.lt_of_not_le hafter, hmem⟩)
      · exact (mem_zrem.mp hmem).2 rfl
      · simp only [Option.ite_none_left_eq_some] at howner
        exact howner.1 ⟨hlisted r m howner.2, howner.2⟩
      · have hid : e.id.text ∈ (db.entries m).map fun e => e.id.text := List.mem_map_of_mem he
        simp only [Function.update_self, hid, ↓reduceIte]
      · cases part with
        | lastActive =>
          change ((db.seen.filter fun e => e.2 != m).filter fun e => e.2 == m') = _
          rw [List.filter_filter]
          refine List.filter_congr fun e _ => ?_
          by_cases he : e.2 = m' <;> simp [he, hm]
        | recipients =>
          refine ⟨Function.update_of_ne hm _ _, fun did => ?_⟩
          simp only [Option.ite_none_left_eq_some, and_iff_right_iff_imp]
          rintro howner ⟨-, hm'⟩
          exact hm (Option.some_inj.mp (howner.symm.trans hm'))
        | queue =>
          exact ⟨Function.update_of_ne hm _ _, Function.update_of_ne hm _ _,
            Function.update_of_ne hm _ _⟩
        | _ => exact Function.update_of_ne hm _ _

/-- A mediation that has nothing has nothing as long as its parts stay the same. -/
theorem Gone.of_same (h : db.Gone m) (hsame : ∀ part, db.Same part m db') : db'.Gone m where
  grant := (show db'.granted m = db.granted m from hsame .grant).trans h.grant
  seen at_ hmem := by
    have hfound : (at_, m) ∈ db'.seen.filter fun e => e.2 == m :=
      List.mem_filter.mpr ⟨hmem, beq_self_eq_true m⟩
    rw [show (db'.seen.filter fun e => e.2 == m) = db.seen.filter fun e => e.2 == m from
      hsame .lastActive] at hfound
    exact h.seen at_ (List.mem_filter.mp hfound).1
  recipients := (hsame .recipients).1.trans h.recipients
  owners r howner := h.owners r (((hsame .recipients).2 r).mp howner)
  queue := (hsame .queue).1.trans h.queue
  bytes := (hsame .queue).2.2.trans h.bytes
  devices service := (congrFun (hsame .devices) service).trans (h.devices service)
  pushMarker := (show db'.pushSent m = db.pushSent m from hsame .pushMarker).trans h.pushMarker

/-- A mediation stays idle as long as its parts stay the same. -/
theorem mem_idle_of_same (hsame : db.Same .lastActive m db') (h : m ∈ db.idle cutoff) :
    m ∈ db'.idle cutoff := by
  obtain ⟨at_, hat, hmem⟩ := mem_idle.mp h
  have hfound : (at_, m) ∈ db.seen.filter fun e => e.2 == m :=
    List.mem_filter.mpr ⟨hmem, beq_self_eq_true m⟩
  rw [← show (db'.seen.filter fun e => e.2 == m) = db.seen.filter fun e => e.2 == m from
    hsame] at hfound
  exact mem_idle.mpr ⟨at_, hat, (List.mem_filter.mp hfound).1⟩

end Removal

end Db

variable {db db' : Db}

/-- With nobody in between, the idle mediations that were listed all go, and the others keep what
they have. -/
theorem run_removeMediations_idle {idle : List String} (honce : db.SeenOnce)
    (hlisted : db.OwnersListed) (hnodup : idle.Nodup) (hidle : ∀ m ∈ idle, m ∈ db.idle cutoff)
    {result : Except StoreError (List String)}
    (hrun : (removeMediations cutoff idle).run.run server db = (result, db')) :
    result = .ok idle ∧ ∀ m, (m ∈ idle ∨ db.Gone m → db'.Gone m) ∧
      (m ∉ idle → ∀ part, db.Same part m db') := by
  induction idle generalizing db result with
  | nil =>
    obtain ⟨rfl, rfl⟩ := Prod.mk.inj hrun
    exact ⟨rfl, fun m => ⟨fun hm => hm.resolve_left List.not_mem_nil, fun _ part => .refl part m _⟩⟩
  | cons first rest ih =>
    obtain ⟨hfirst, hrest⟩ := List.nodup_cons.mp hnodup
    obtain ⟨at_, hat, hmem⟩ := Db.mem_idle.mp (hidle first List.mem_cons_self)
    rcases run_removeMediations_cons cutoff first rest db with ⟨hkept, -⟩ | ⟨db₁, hgone, hcons⟩
    · -- the script does not refuse it
      rcases Db.removeMediation_answer honce hlisted (.request hkept) with
        ⟨-, -, later, hlater, hmem'⟩ | ⟨hanswer, -⟩
      · have hsame := (zscore_of_mem honce.members hmem).symm.trans
          (zscore_of_mem honce.members hmem')
        obtain rfl := Option.some_inj.mp hsame
        exact absurd hlater (Nat.not_lt.mpr hat)
      · cases hanswer
    have hstep : ServerStep db (some ⟨.removeMediation first cutoff, .ok (1 : ℕ)⟩) db₁ :=
      .request hgone
    obtain ⟨-, -, hnothing, -, hothers⟩ :=
      (Db.removeMediation_answer honce hlisted hstep).resolve_left fun h => by cases h.1
    -- the rest is still idle after the first one is gone
    have hlisted₁ : db₁.OwnersListed := by
      have hkeeps := Db.keeps_ownersListed (.removeMediation first cutoff) db hlisted
      have hdb₁ : (Script.exec (Request.script (.removeMediation first cutoff)) db).2 = db₁ :=
        congrArg Prod.snd hgone
      exact hdb₁ ▸ hkeeps
    obtain ⟨removed, db₂, hloop, -⟩ := run_removeMediations cutoff rest db₁
    obtain ⟨rfl, rfl⟩ := Prod.mk.inj (hrun.symm.trans (hcons removed db₂ hloop))
    obtain ⟨hremoved, hparts⟩ := ih (honce.step hstep) hlisted₁ hrest (fun m hm => by
      have hne : m ≠ first := fun heq => hfirst (heq ▸ hm)
      exact Db.mem_idle_of_same (hothers m hne .lastActive) (hidle m (List.mem_cons_of_mem _ hm)))
        hloop
    obtain rfl := Except.ok.inj hremoved
    refine ⟨rfl, fun m => ⟨?_, fun hm part => ?_⟩⟩
    · rintro (hm | hm)
      · rcases List.mem_cons.mp hm with rfl | hm
        · exact (hparts m).1 (.inr hnothing)
        · exact (hparts m).1 (.inl hm)
      · by_cases hne : m = first
        · exact (hparts m).1 (.inr (hne ▸ hnothing))
        · exact (hparts m).1 (.inr (hm.of_same (hothers m hne)))
    · rw [List.mem_cons, not_or] at hm
      exact (hothers m hm.1 part).trans ((hparts m).2 hm.2 part)

/-- A removal with nobody in between takes idle mediations, as many as it may, each with all it
has. -/
theorem removal_answer {removed : List String} (honce : db.SeenOnce) (hlisted : db.OwnersListed)
    (h : Program.Handled redis db ⟨.removeIdleMediations cutoff limit, .ok removed⟩ db') :
    removed.Nodup ∧ removed.length = min limit (db.idle cutoff).card ∧
      (∀ m ∈ removed, m ∈ db.idle cutoff ∧ db'.Gone m) ∧
      ∀ m ∉ removed, ∀ part, db.Same part m db' := by
  have hrun : redis (.removeIdleMediations cutoff limit) db = (.ok removed, db') := h
  rw [redis_removeIdleMediations] at hrun
  split at hrun
  · cases (Prod.mk.inj hrun).1
  -- each mediation has one score, so it is listed once
  have hdue : ((db.seen.filter fun e => e.1 ≤ cutoff).map Prod.snd).Nodup :=
    (Ranked.filter honce _).members
  have hnodup : (zrange cutoff limit db.seen).Nodup := hdue.sublist (List.take_sublist _ _)
  have hidle : ∀ m ∈ zrange cutoff limit db.seen, m ∈ db.idle cutoff := fun m hm =>
    List.mem_toFinset.mpr (List.mem_of_mem_take hm)
  obtain ⟨hremoved, hparts⟩ := run_removeMediations_idle honce hlisted hnodup hidle hrun
  obtain rfl := Except.ok.inj hremoved
  refine ⟨hnodup, ?_, fun m hm => ⟨hidle m hm, (hparts m).1 (.inl hm)⟩, fun m hm => (hparts m).2 hm⟩
  rw [zrange, List.length_take, Db.idle, List.toFinset_card_of_nodup hdue]

/-- What is reached from an empty server has one record for each mediation. -/
theorem ServerReachable.seenOnce {max : ℕ} (h : ServerReachable max db) : db.SeenOnce := by
  obtain ⟨clock, labels, hrun, -⟩ := h
  have hempty : (Db.empty clock).SeenOnce := ⟨.nil, List.nodup_nil⟩
  exact hrun.invariant hempty fun _ _ _ h hstep => h.step hstep

/-- An owner has the DID among its recipients in every reachable database. -/
theorem ServerReachable.ownersListed {max : ℕ} (h : ServerReachable max db) : db.OwnersListed := by
  obtain ⟨s, hsound, hregisters⟩ := h.registry
  exact fun r m => ((hregisters.agree hsound).agree r m).mp

/-! ## A batch -/

/-- Other clients are active after the cutoff only. -/
def Others (cutoff : ℕ) (db db' : Db) : Prop :=
  ∃ label, ServerStep db label db' ∧ Db.Fresh cutoff label

/-- The server refuses to remove a mediation. -/
def Refuses : Call ServerCall → Prop
  | ⟨.removeMediation _ _, reply⟩ => reply = .ok 0
  | _ => False

section Batch

variable {s t : Db} {calls : List (Call ServerCall)}

/-- The server with other clients on it. -/
abbrev busy (cutoff : ℕ) : Program.Environment ServerCall Db :=
  Program.Interfered (Others cutoff) (Program.Handled server)

/-- The records stay single and no mediation becomes idle while others are active. -/
theorem others_kept (honce : s.SeenOnce) (h : Relation.ReflTransGen (Others cutoff) s t) :
    t.SeenOnce ∧ t.idle cutoff ⊆ s.idle cutoff := by
  refine Program.kept_until (fun t => t.SeenOnce ∧ t.idle cutoff ⊆ s.idle cutoff) ?_ h
    ⟨honce, subset_rfl⟩
  rintro u v ⟨honce, hsub⟩ ⟨label, hstep, hfresh⟩
  exact ⟨honce.step hstep, (Db.idle_subset hstep hfresh).trans hsub⟩

/-- The script changes nothing, or the mediation's record goes. -/
theorem removeMediation_seen {reply : Except StoreError ℕ}
    (h : Program.Handled server s ⟨.removeMediation m cutoff, reply⟩ t) :
    (reply = .ok 0 ∧ t = s) ∨ (reply = .ok 1 ∧ t.seen = zrem m s.seen) := by
  have hexec : (removeMediation m cutoff).exec s = (reply, t) := h
  rcases exec_removeMediation m cutoff s with ⟨-, heq⟩ | ⟨-, body, heq⟩
  · obtain ⟨rfl, rfl⟩ := Prod.mk.inj (hexec.symm.trans heq)
    exact .inl ⟨rfl, rfl⟩
  · obtain ⟨rfl, rfl⟩ := Prod.mk.inj (hexec.symm.trans heq)
    exact .inr ⟨rfl, rfl⟩

/-- Of those listed, the mediations that are still idle at their turn go. -/
theorem removeMediations_sweeps (listed : List String) {result : Except StoreError (List String)}
    (honce : s.SeenOnce)
    (h : Program.Executes (busy cutoff) (removeMediations cutoff listed).run s calls result t) :
    ∃ removed, result = .ok removed ∧ removed.Sublist listed ∧ t.SeenOnce ∧
      t.idle cutoff ⊆ s.idle cutoff ∧ (∀ m ∈ removed, m ∉ t.idle cutoff) ∧
      ((∀ c ∈ calls, ¬ Refuses c) → removed = listed) := by
  induction listed generalizing s calls result with
  | nil =>
    obtain ⟨rfl, rfl, rfl⟩ := h.done_inv
    exact ⟨[], rfl, .slnil, honce, subset_rfl, by simp, fun _ => rfl⟩
  | cons first rest ih =>
    rw [removeMediations] at h
    rcases h.exceptT_bind_inv with ⟨e, hsend, -⟩ | ⟨calls₁, calls₂, gone, v, rfl, hsend, hrest⟩
    · -- the script does not fail
      obtain ⟨-, u, -, hscript⟩ := hsend.request_inv
      rcases removeMediation_seen hscript with ⟨herror, -⟩ | ⟨herror, -⟩ <;> cases herror
    obtain ⟨rfl, u, hothers, hscript⟩ := hsend.request_inv
    have hstep : ServerStep u (some _) v := .request hscript
    -- in between the other clients make none idle
    obtain ⟨huonce, husub⟩ := others_kept honce hothers
    have hvonce := huonce.step hstep
    have hvsub : v.idle cutoff ⊆ s.idle cutoff := (Db.idle_subset hstep trivial).trans husub
    rcases hrest.exceptT_bind_inv with ⟨e, hfail, -⟩ | ⟨calls₃, calls₄,
      removed, w, rfl, hloop, hdone⟩
    · obtain ⟨removed, herror, -⟩ := ih hvonce hfail
      cases herror
    obtain ⟨rfl, rfl, rfl⟩ := hdone.done_inv
    obtain ⟨removed, hremoved, hsublist, htonce, htsub, htaken, hall⟩ := ih hvonce hloop
    obtain rfl := Except.ok.inj hremoved
    refine ⟨_, rfl, ?_, htonce, htsub.trans hvsub, ?_, ?_⟩
    · split
      · exact hsublist.cons_cons first
      · exact hsublist.cons first
    · intro m hm
      rcases removeMediation_seen hscript with ⟨hkept, -⟩ | ⟨hgone, hseen⟩
      · obtain rfl := Except.ok.inj hkept
        exact htaken m (by simpa using hm)
      · obtain rfl := Except.ok.inj hgone
        rcases List.mem_cons.mp (by simpa using hm) with rfl | hm
        · -- its record went with the script
          intro hidle
          obtain ⟨at_, -, hmem⟩ := Db.mem_idle.mp (htsub hidle)
          rw [hseen, mem_zrem] at hmem
          exact hmem.2 rfl
        · exact htaken m hm
    · intro hrefuses
      -- no call refuses, so the script removed it
      have hgone : gone = 1 := by
        rcases removeMediation_seen hscript with ⟨hkept, -⟩ | ⟨hgone, -⟩
        · have hrefused : ¬ Refuses ⟨.removeMediation first cutoff, .ok gone⟩ :=
            hrefuses _ (by simp)
          exact absurd hkept hrefused
        · exact Except.ok.inj hgone
      rw [if_pos hgone, hall fun c hc => hrefuses c (by simp [hc])]

/-- `remove_idle_mediations` with other clients on the server is a batch of a sweep. If the server
refuses no removal, a batch with room left over leaves no idle mediation. -/
theorem removal_batch {reply : Except StoreError (List String)} (hlimit : limit ≤ maxLimit)
    (honce : s.SeenOnce)
    (h : Program.Executes (busy cutoff) (method
      (.removeIdleMediations cutoff limit)).run s calls reply t) :
      ∃ removed, reply = .ok removed ∧ t.SeenOnce ∧
        Sweep.Batch (s.idle cutoff) removed (t.idle cutoff) ∧ removed.length ≤ limit ∧
          ((∀ c ∈ calls, ¬ Refuses c) → removed.length < limit → t.idle cutoff = ∅) := by
  -- a LIMIT that fits lists what is idle when the request is handled
  have hlist : ∀ u, server (.seenBy cutoff limit) u = (.ok (zrange cutoff limit u.seen), u) := by
    intro u
    change (zrangeLimit Db.seen cutoff limit).exec u = _
    simp only [zrangeLimit, if_neg (Nat.not_lt.mpr hlimit), exec_read]
  rw [method] at h
  rcases h.exceptT_bind_inv with ⟨e, hsend, -⟩ | ⟨calls₁, calls₂, listed, v, rfl, hsend, hrest⟩
  · obtain ⟨-, u, -, hlisted⟩ := hsend.request_inv
    cases (Prod.mk.inj ((hlist u).symm.trans hlisted)).1
  obtain ⟨rfl, u, hothers, hlisted⟩ := hsend.request_inv
  obtain ⟨huonce, husub⟩ := others_kept honce hothers
  obtain ⟨hanswer, rfl⟩ := Prod.mk.inj ((hlist u).symm.trans hlisted)
  obtain rfl := Except.ok.inj hanswer
  obtain ⟨removed, rfl, hsublist, htonce, htsub, htaken, hall⟩ :=
    removeMediations_sweeps _ huonce hrest
  have hdue : ((u.seen.filter fun e => e.1 ≤ cutoff).map Prod.snd).Nodup :=
    (Ranked.filter huonce _).members
  refine ⟨removed, rfl, htonce, ⟨?_, fun m hm => ?_, fun m hm => ?_⟩,
    hsublist.length_le.trans (List.length_take_le _ _), fun hrefuses hroom => ?_⟩
  · exact hdue.sublist (hsublist.trans (List.take_sublist _ _))
  · exact husub (List.mem_toFinset.mpr (List.mem_of_mem_take (hsublist.subset hm)))
  · rw [Finset.mem_sdiff, List.mem_toFinset]
    exact ⟨husub (htsub hm), fun htook => htaken m htook hm⟩
  · -- all that was idle when it was listed has been taken
    have hremoved := hall fun c hc => hrefuses c (by simp [hc])
    subst hremoved
    rw [zrange, List.length_take] at hroom
    have hfull : zrange cutoff limit u.seen = (u.seen.filter fun e => e.1 ≤ cutoff).map Prod.snd :=
      List.take_of_length_le (by omega)
    rw [Finset.eq_empty_iff_forall_notMem]
    intro m hm
    refine htaken m ?_ hm
    rw [hfull]
    exact List.mem_toFinset.mp (htsub hm)

end Batch

end Store.Redis

namespace Store

/-- In every reachable state of either store, a removal takes idle mediations only, as many as it
may; each loses all it has and the others keep all they have. With others on the Redis server in
between it takes each once, up to the limit; its script refuses exactly the mediations that were
active after the cutoff. -/
theorem removal_takes_idle (max : ℕ) :
    (∀ inner, MemoryReachable max inner → ∀ cutoff limit removed inner',
      MemoryStep inner ⟨.removeIdleMediations cutoff limit, .ok removed⟩ inner' →
        removed.Nodup ∧ removed.length = min limit (inner.idle cutoff).card ∧
        (∀ m ∈ removed, m ∈ inner.idle cutoff ∧ inner'.Gone m) ∧
        ∀ m ∉ removed, ∀ part, inner.Same part m inner') ∧
    (∀ db, Redis.ServerReachable max db → ∀ cutoff limit removed db',
      Program.Handled Redis.redis db ⟨.removeIdleMediations cutoff limit, .ok removed⟩ db' →
        removed.Nodup ∧ removed.length = min limit (db.idle cutoff).card ∧
        (∀ m ∈ removed, m ∈ db.idle cutoff ∧ db'.Gone m) ∧
        ∀ m ∉ removed, ∀ part, db.Same part m db') ∧
    (∀ db, Redis.ServerReachable max db → ∀ cutoff limit calls removed db', limit ≤ Redis.maxLimit →
      Program.Executes (Redis.busy cutoff)
      (Redis.method (.removeIdleMediations cutoff limit)).run db calls (.ok removed) db' →
        removed.Nodup ∧ removed.length ≤ limit ∧
        ∀ m ∈ removed, m ∈ db.idle cutoff ∧ m ∉ db'.idle cutoff) ∧
    (∀ db, Redis.ServerReachable max db → ∀ m cutoff reply db',
      Redis.ServerStep db (some ⟨.removeMediation m cutoff, reply⟩) db' →
        (reply = .ok 0 ∧ db' = db ∧ ∃ at_ > cutoff, (at_, m) ∈ db.seen) ∨
        (reply = .ok 1 ∧ (∀ at_, (at_, m) ∈ db.seen → at_ ≤ cutoff) ∧ db'.Gone m ∧
          (∀ e ∈ db.entries m, db'.body m e.id.text = none) ∧
          ∀ m', m' ≠ m → ∀ part, db.Same part m' db')) := by
  refine ⟨fun inner hreach cutoff limit removed inner' hstep => ?_,
    fun db hreach cutoff limit removed db' hhandled => ?_,
    fun db hreach cutoff limit calls removed db' hlimit hexecutes => ?_,
    fun db hreach m cutoff reply db' hstep => ?_⟩
  · obtain ⟨hbatch, hlength⟩ := Inner.removal_batch hreach.seenOnce hstep
    obtain ⟨-, -, -, hremoved⟩ := Inner.removal_eq hstep
    have hparts := Inner.foldl_removeMediation_parts removed hreach.registered
    rw [← hremoved] at hparts
    exact ⟨hbatch.nodup, hlength, fun m hm => ⟨hbatch.was m hm, (hparts m).1 (.inl hm)⟩,
      fun m hm => (hparts m).2 hm⟩
  · exact Redis.removal_answer hreach.seenOnce hreach.ownersListed hhandled
  · obtain ⟨_, hreply, -, hbatch, hlength, -⟩ :=
      Redis.removal_batch hlimit hreach.seenOnce hexecutes
    obtain rfl := Except.ok.inj hreply
    exact ⟨hbatch.nodup, hlength, fun m hm => ⟨hbatch.was m hm, hbatch.notMem hm⟩⟩
  · exact Redis.Db.removeMediation_answer hreach.seenOnce hreach.ownersListed hstep

namespace IdleExample

/-- A mediation with a recipient, a message and a device, and one that is active later. -/
def ops : List Op :=
  [.grantMediation "m" 100, .addRecipient "m" "did:ex:a" 5,
    .enqueue "m" "did:ex:a" "hello" 100 { ttlSecs := 60, maxMessages := 10, maxBytes := 1000 },
    .setDevice "m" .fcm (some { token := "t", platform := none }),
    .grantMediation "n" 130, .addRecipient "n" "did:ex:b" 5]

/-- What the in-process store holds then. -/
def inner : Inner := ops.foldl (fun s op => (memory s.seen op s).2) .empty

/-- What the Redis store holds then. -/
def db : Redis.Db := ops.foldl (fun db op => (Redis.redis op db).2) (.empty 100000)

/-- Operations run in memory one after the other. -/
theorem run_memory (ops : List Op) (s : Inner) : ∃ calls,
    Transition.Run MemoryStep s calls (ops.foldl (fun s op => (memory s.seen op s).2) s) ∧
      calls.map Call.op = ops := by
  induction ops generalizing s with
  | nil => exact ⟨[], .nil, rfl⟩
  | cons op ops ih =>
    obtain ⟨calls, hrun, hops⟩ := ih (memory s.seen op s).2
    refine ⟨⟨op, (memory s.seen op s).1⟩ :: calls, hrun.cons ⟨s.seen, .refl _, rfl⟩, ?_⟩
    rw [List.map_cons, hops]

/-- Operations run in Redis one after the other. -/
theorem run_redis (ops : List Op) (db : Redis.Db) : ∃ calls,
    Transition.Run (Program.Handled Redis.redis) db calls
        (ops.foldl (fun db op => (Redis.redis op db).2) db) ∧
      calls.map Call.op = ops := by
  induction ops generalizing db with
  | nil => exact ⟨[], .nil, rfl⟩
  | cons op ops ih =>
    obtain ⟨calls, hrun, hops⟩ := ih (Redis.redis op db).2
    refine ⟨⟨op, (Redis.redis op db).1⟩ :: calls, hrun.cons rfl, ?_⟩
    rw [List.map_cons, hops]

/-- They add up to five recipients. -/
theorem addsUpTo {calls : List (Call StoreCall)} (h : calls.map Call.op = ops) :
    ∀ c ∈ calls, ∀ reply, AddsUpTo 5 ⟨c.op, reply⟩ := by
  have hops : ∀ op ∈ ops, ∀ reply, AddsUpTo 5 ⟨op, reply⟩ := by
    simp [ops, AddsUpTo]
  intro c hc reply
  exact hops c.op (h ▸ List.mem_map_of_mem hc) reply

/-- So what they reach is a sound registry. -/
theorem memoryReachable : MemoryReachable 5 inner := by
  obtain ⟨calls, hrun, hops⟩ := run_memory ops .empty
  exact ⟨calls, hrun, fun c hc => addsUpTo hops c hc c.reply⟩

/-- So is what they reach in Redis. -/
theorem serverReachable : Redis.ServerReachable 5 db := by
  obtain ⟨calls, hrun, hops⟩ := run_redis ops (.empty 100000)
  exact Redis.redis_reachable hrun (addsUpTo hops)

end IdleExample

open IdleExample in
/-- A cleanup whose cutoff is 120 takes the one mediation with all it has, and leaves the other. -/
theorem removal_takes_idle_granted : ∃ inner' db',
    (inner.recipients "m" = ["did:ex:a"] ∧ inner.queues "m" ≠ [] ∧ inner.devices "m" .fcm ≠ none ∧
      inner'.Gone "m" ∧ inner.recipients "n" = ["did:ex:b"] ∧
      ∀ part, inner.Same part "n" inner') ∧
    (db.recipients "m" = ["did:ex:a"] ∧ db.queue "m" ≠ none ∧ db.devices "m" .fcm ≠ none ∧
      db'.Gone "m" ∧ db.recipients "n" = ["did:ex:b"] ∧ ∀ part, db.Same part "n" db') ∧
    ((Redis.removeMediation "n" 120).exec db).1 = .ok 0 := by
  obtain ⟨hmemory, hredis, -, hscript⟩ := removal_takes_idle 5
  have hinner : MemoryStep inner ⟨.removeIdleMediations 120 5, .ok ["m"]⟩
      (memory inner.seen (.removeIdleMediations 120 5) inner).2 := ⟨inner.seen, .refl _, rfl⟩
  have hremoved : (Redis.redis (.removeIdleMediations 120 5) db).1 = .ok ["m"] := by decide +kernel
  have hdb : Program.Handled Redis.redis db ⟨.removeIdleMediations 120 5, .ok ["m"]⟩
      (Redis.redis (.removeIdleMediations 120 5) db).2 := Prod.ext hremoved rfl
  obtain ⟨-, -, hgone, hkept⟩ := hmemory inner memoryReachable 120 5 ["m"] _ hinner
  obtain ⟨-, -, hgoneDb, hkeptDb⟩ := hredis db serverReachable 120 5 ["m"] _ hdb
  refine ⟨_, _, ⟨by decide +kernel, by decide +kernel, by decide +kernel, (hgone "m" (by simp)).2,
    by decide +kernel, hkept "n" (by simp)⟩, ⟨by decide +kernel, by decide +kernel,
    by decide +kernel, (hgoneDb "m" (by simp)).2, by decide +kernel, hkeptDb "n" (by simp)⟩, ?_⟩
  have hseen : db.seen = [(100, "m"), (130, "n")] := by decide +kernel
  rcases hscript db serverReachable "n" 120 _ _ (.request rfl) with ⟨hrefused, -⟩ | ⟨-, hidle, -⟩
  · exact hrefused
  · exact absurd (hidle 130 (by simp [hseen])) (by decide)

end Store
