import AlmenaMediator.Store.Ownership

/-!
# Stores that register recipients

What a statement about who owns a DID needs to know of a store: a DID comes to a mediation only by a
successful `add_recipient`. Both stores are such.
-/

namespace Store

/-- A store, as far as the owners of recipient DIDs go. -/
structure Registrar (σ : Type) where
  /-- The store's methods. -/
  env : Program.Environment StoreCall σ
  /-- What time does to the store. -/
  idle : σ → σ → Prop
  /-- The mediation that registered a DID. -/
  owner : σ → String → Option String
  /-- A DID comes to a mediation only by being added. -/
  registered : ∀ {s t c did m}, env s c t → owner t did = some m →
    owner s did = some m ∨ ∃ max, c = ⟨.addRecipient m did max, .ok .added⟩
  /-- A DID that was added is the mediation's. -/
  added : ∀ {s t did m max}, env s ⟨.addRecipient m did max, .ok .added⟩ t → owner t did = some m
  /-- Time does not change owners. -/
  idle_owner : ∀ {s t}, idle s t → owner t = owner s

/-! ## The in-process store -/

namespace Inner

variable (inner : Inner) {m did : String}

/-- A DID owned after a recipient was added was owned by the same mediation before, or is the DID
that this call added to it. -/
theorem addRecipient_owner {mediation recipient : String} {max : ℕ}
    (h : (inner.addRecipient mediation recipient max).2.owners did = some m) :
    inner.owners did = some m ∨
      (mediation = m ∧ recipient = did ∧ (inner.addRecipient mediation
        recipient max).1 = .added) := by
  unfold addRecipient at h ⊢
  cases howner : inner.owners recipient with
  | some owner => exact .inl (by simpa [howner] using h)
  | none =>
    simp only [howner] at h ⊢
    split at h
    · exact .inl h
    · rename_i hroom
      -- the DID was free and is the mediation's now
      by_cases hdid : did = recipient
      · subst hdid
        obtain rfl : mediation = m := by simpa using h
        exact .inr ⟨rfl, rfl, by rw [if_neg hroom]⟩
      · exact .inl (by simpa [hdid] using h)

/-- Removing a recipient gives no DID an owner. -/
theorem removeRecipient_owner {mediation recipient : String}
    (h : (inner.removeRecipient mediation recipient).2.owners did = some m) :
    inner.owners did = some m := by
  unfold removeRecipient at h
  cases howner : inner.owners recipient with
  | none => simpa [howner] using h
  | some owner =>
    simp only [howner] at h
    split at h
    · exact h
    · by_cases hdid : did = recipient
      · simp [hdid] at h
      · simpa [hdid] using h

/-- Removing any list of mediations gives no DID an owner. -/
theorem foldl_removeMediation_owner {removed : List String}
    (h : (removed.foldl removeMediation inner).owners did = some m) :
    inner.owners did = some m := by
  induction removed generalizing inner with
  | nil => exact h
  | cons mediation rest ih =>
    have hnext := ih _ h
    simp only [removeMediation] at hnext
    split at hnext
    · simp at hnext
    · exact hnext

end Inner

/-- A DID comes to a mediation in the in-process store only by being added. -/
theorem MemoryStep.registered {inner inner' : Inner} {c : Call StoreCall} {did m : String}
    (hstep : MemoryStep inner c inner') (h : inner'.owners did = some m) :
    inner.owners did = some m ∨ ∃ max, c = ⟨.addRecipient m did max, .ok .added⟩ := by
  by_cases htouches : c.op.Touches .registry
  -- a call that does not touch the registry leaves every owner
  swap
  · obtain ⟨howners, -⟩ := hstep.sameArea htouches
    exact .inl (howners ▸ h)
  obtain ⟨order, -, hstep⟩ := hstep
  obtain ⟨op, reply⟩ := c
  obtain ⟨rfl, rfl⟩ := hstep.eq
  cases op with
  | addRecipient mediation recipient max =>
    rcases inner.addRecipient_owner h with h | ⟨rfl, rfl, hadded⟩
    · exact .inl h
    · exact .inr ⟨max, by simp [memory, hadded]⟩
  | removeRecipient mediation recipient => exact .inl (inner.removeRecipient_owner h)
  | removeIdleMediations cutoff limit => exact .inl (inner.foldl_removeMediation_owner h)
  | _ => exact htouches.elim

/-- The in-process store. -/
def memoryRegistrar : Registrar Inner where
  env := MemoryStep
  idle inner inner' := inner' = inner
  owner := Inner.owners
  registered := MemoryStep.registered
  added := by
    rintro inner inner' did m max ⟨order, -, hstep⟩
    obtain ⟨hreply, rfl⟩ := hstep.eq
    simp only [memory, Except.ok.injEq, Inner.addRecipient] at hreply ⊢
    cases howner : inner.owners did with
    | some owner => by_cases hm : owner = m <;> simp [howner, hm] at hreply
    | none =>
      by_cases hfull : max ≤ (inner.recipients m).length <;> simp [howner, hfull] at hreply ⊢
  idle_owner h := by rw [h]

/-! ## The Redis store -/

namespace Redis

variable {db db' : Db} {m did : String}

/-- A DID comes to a mediation on the server only by `ADD_RECIPIENT`. -/
theorem server_registered {request : Request} (h : (server request db).2.owner did = some m) :
    db.owner did = some m ∨ ∃ max, request = .addRecipient m did max ∧
      ((addRecipient m did max).exec db).1 = .ok "added" := by
  by_cases htouches : request.Touches .registry
  · cases request with
    | addRecipient mediation recipient max =>
      simp only [server, Request.script, exec_addRecipient] at h ⊢
      -- the script's refusals leave the owners, and what it adds has the new owner
      by_cases hmine : db.owner recipient = some mediation
      · exact .inl (by simpa [hmine] using h)
      by_cases htaken : (db.owner recipient).isSome
      · exact .inl (by simpa [hmine, htaken] using h)
      by_cases hfull : max ≤ (db.recipients mediation).length
      · exact .inl (by simpa [hmine, htaken, hfull] using h)
      simp only [hmine, htaken, hfull, ↓reduceIte, Bool.false_eq_true] at h ⊢
      by_cases hdid : did = recipient
      · subst hdid
        obtain rfl : mediation = m := by simpa using h
        exact .inr ⟨max, rfl, by simp [hmine, htaken, hfull]⟩
      · exact .inl (by simpa [hdid] using h)
    | removeRecipient mediation recipient =>
      simp only [server, Request.script, exec_removeRecipient] at h
      split_ifs at h
      · exact .inl h
      · exact .inl h
      · by_cases hdid : did = recipient
        · simp [hdid] at h
        · exact .inl (by simpa [hdid] using h)
    | removeMediation mediation cutoff =>
      simp only [server, Request.script] at h
      rcases exec_removeMediation mediation cutoff db with ⟨-, heq⟩ | ⟨-, body, heq⟩
      · exact .inl (by simpa only [heq] using h)
      · simp only [heq] at h
        split at h
        · simp at h
        · exact .inl h
    | _ => exact htouches.elim
  · obtain ⟨howner, -⟩ := server_sameArea htouches db
    exact .inl (howner ▸ h)

/-- Where no `ADD_RECIPIENT` is sent, nothing is registered. -/
theorem run_registered {labels : List (Option (Call ServerCall))}
    (hrun : Transition.Run ServerStep db labels db')
    (hlabels : ∀ c, some c ∈ labels → ∀ mediation recipient max,
      c.op ≠ .addRecipient mediation recipient max)
    (h : db'.owner did = some m) : db.owner did = some m := by
  induction hrun with
  | nil => exact h
  | snoc _ hstep ih =>
    refine ih (fun c hc => hlabels c (by simp [hc])) ?_
    cases hstep with
    | time ms => exact h
    | @request _ c handled =>
      obtain ⟨op, reply⟩ := c
      obtain ⟨rfl, rfl⟩ := Program.Handled.eq handled
      rcases server_registered h with hown | ⟨max, hadd, -⟩
      · exact hown
      · exact absurd hadd (hlabels _ (List.mem_append_right _ (.head _)) m did max)

/-- What `add_recipient` answers on Redis is its script's reply, read as one of the three results.
-/
theorem redis_addRecipient (mediation recipient : String) (max : ℕ) :
    redis (.addRecipient mediation recipient max) db =
      ((server (.addRecipient mediation recipient max) db).1.bind addRecipientResult,
        (server (.addRecipient mediation recipient max) db).2) := by
  have hmethod : (method (.addRecipient mediation recipient max)).run =
      .call (Request.addRecipient mediation recipient max) fun reply =>
        match reply with
        | .ok result => .done (addRecipientResult result)
        | .error e => .done (.error e) := by
    simp only [method, send, ExceptT.run_bind, ExceptT.run_mk, Program.request, Program.call_bind,
      Program.done_bind]
    congr
    funext reply
    cases reply <;> rfl
  simp only [redis, hmethod, Program.run_call]
  cases (server (.addRecipient mediation recipient max) db).1 <;> rfl

/-- A DID comes to a mediation in the Redis store only by being added. -/
theorem redis_registered {c : Call StoreCall} (hstep : Program.Handled redis db c db')
    (h : db'.owner did = some m) :
    db.owner did = some m ∨ ∃ max, c = ⟨.addRecipient m did max, .ok .added⟩ := by
  by_cases hadd : ∃ mediation recipient max, c.op = .addRecipient mediation recipient max
  · obtain ⟨op, reply⟩ := c
    obtain ⟨mediation, recipient, max, rfl⟩ := hadd
    obtain ⟨rfl, rfl⟩ := hstep.eq
    rw [redis_addRecipient] at h ⊢
    rcases server_registered h with hown | ⟨max', heq, hadded⟩
    · exact .inl hown
    · obtain ⟨rfl, rfl, rfl⟩ : mediation = m ∧ recipient = did ∧ max = max' := by simpa using heq
      exact .inr ⟨max, by simp only [server, Request.script, hadded]; rfl⟩
  -- no other method sends the script that adds
  · push Not at hadd
    obtain ⟨requests, hrun, hsends⟩ := redis_requests hstep
    refine .inl (run_registered hrun (fun r hr mediation recipient max hop => ?_) h)
    obtain ⟨r', hr', heq⟩ := List.mem_map.mp hr
    obtain rfl : r' = r := by simpa using heq
    have hsent := hsends r' hr'
    rw [hop] at hsent
    cases hc : c.op with
    | addRecipient mediation recipient max => exact hadd _ _ _ hc
    | _ => simp [hc, Sends] at hsent

/-- The Redis store, when no other client comes in the middle of a method. -/
def registrar : Registrar Db where
  env := Program.Handled redis
  idle db db' := ∃ ms, db' = db.advance ms
  owner := Db.owner
  registered := redis_registered
  added := by
    intro db db' did m max hstep
    obtain ⟨hreply, rfl⟩ := hstep.eq
    rw [redis_addRecipient] at hreply ⊢
    simp only [server, Request.script, exec_addRecipient] at hreply ⊢
    by_cases hmine : db.owner did = some m
    · simp [hmine, Except.bind, addRecipientResult] at hreply
    by_cases htaken : (db.owner did).isSome
    · simp [hmine, htaken, Except.bind, addRecipientResult] at hreply
    by_cases hfull : max ≤ (db.recipients m).length
    · simp [hmine, htaken, hfull, Except.bind, addRecipientResult] at hreply
    · simp [hmine, htaken, hfull]
  idle_owner := by
    rintro db db' ⟨ms, rfl⟩
    rfl

end Redis

end Store
