import AlmenaMediator.Dispatch.Authority
import AlmenaMediator.Dispatch.Loopback
import AlmenaMediator.Library.Pool
import AlmenaMediator.Store.Registrar

/-!
# Who may register a DID

Any number of messages, whatever they say, are handled at once, their calls in any order, while the
background tasks run. A DID that is not the mediation's own is registered by a `recipient-update`
that its mediation authenticated and that carries a proof signed by the DID.
-/

namespace Dispatch

open Didcomm

/-- The envelope holds a `recipient-update`, authenticated as `mediation`, that may add `did`. -/
def MayRegister (prim : Primitives) (mediator : Mediator) (resolver : Resolver) (packed : String)
    (readings : ℕ → Prop) (mediation did : String) : Prop :=
  ∃ message metadata,
    unpack prim resolver mediator.identity.secrets packed = .ok (message, metadata) ∧
    metadata.authenticated ∧ message.from_ = some mediation ∧
    AddedBy prim mediator resolver readings mediation message did

/-- Recipients are only added where they may be. -/
def AddsOnly (may : String → String → Prop) : Effect → Prop
  | .store (.addRecipient mediation did _) => may mediation did
  | _ => True

section AddsOnly

variable {may : String → String → Prop} {mediator : Mediator} {e : Effect}
  {rely : (e : Effect) → Surroundings.Reply e → Prop}

/-- Carrying a message adds no recipient. -/
theorem Carries.addsOnly (h : Carries mediator rely e) : AddsOnly may e := by
  cases e with
  | store op => cases op <;> trivial
  | _ => trivial

/-- Waking devices adds no recipient. -/
theorem Wakes.addsOnly {mediation : String} (h : Wakes mediator rely mediation e) :
    AddsOnly may e := by
  cases e with
  | store op => cases op <;> trivial
  | _ => trivial

/-- The periodic tasks add no recipient. -/
theorem Chore.addsOnly (h : Chore e) : AddsOnly may e := by
  cases e with
  | store op => cases op <;> trivial
  | _ => trivial

/-- A handler adds the recipients that it may add for its requester. -/
theorem OnBehalfOf.addsOnly {mayAdd : String → Prop} {requester : String} {session : Option ℕ}
    (h : OnBehalfOf mediator rely requester session mayAdd e)
    (hadd : ∀ did, mayAdd did → may requester did) : AddsOnly may e := by
  cases e with
  | store op =>
    cases op with
    | addRecipient mediation did max =>
      obtain ⟨rfl, -, -, hmay⟩ := h
      exact hadd did hmay
    | _ => trivial
  | _ => trivial

/-- Of all jobs, receiving a message adds recipients. -/
theorem program_addsOnly {prim : Primitives}
    (hclock : ∀ now, rely .now now → now < maxClock) {job : Job} :
    (job.program prim mediator).Ensures rely
      (AddsOnly fun mediation did => ∃ resolver packed session,
        job = .receive resolver packed session ∧
          MayRegister prim mediator resolver packed (rely .now) mediation did) fun _ => True := by
  refine program_ensures hclock (fun _ h => h.addsOnly) (fun _ h => h.addsOnly)
    (fun _ _ h => h.addsOnly) (fun _ => trivial) ?_
  intro resolver packed session message metadata r hjob hunpack hauth hfrom e he
  exact he.addsOnly fun did hadded =>
    ⟨resolver, packed, session, hjob, message, metadata, hunpack, hauth, hfrom, hadded⟩

end AddsOnly

/-! ## Runs -/

/-- The mediator over a store: any jobs start at any time, their calls come in any order. -/
def system {σ : Type} (prim : Primitives) (mediator : Mediator) (registrar : Store.Registrar σ) :
    Pool.System Surroundings Job σ where
  program := Job.program prim mediator
  start _ _ s t := t = s
  env _ := around registrar.env
  idle c t := registrar.idle c.shared t

/-- A call of a job that registers `did`. -/
def Registers (did : String) : Pool.Label Surroundings Job → Prop
  | .call _ _ _ ⟨.store (.addRecipient _ d _), .ok .added⟩ => d = did
  | _ => False

/-- The envelope holds a `recipient-update`, authenticated as `mediation`, that asks to add `did`
with a proof signed by `did`, for this mediator, on behalf of `mediation`, recent at one of
`readings` of the clock. -/
def ProvenUpdate (prim : Primitives) (mediator : Mediator) (resolver : Resolver) (packed : String)
    (readings : ℕ → Prop) (mediation did : String) : Prop :=
  ∃ message metadata updates update token,
    unpack prim resolver mediator.identity.secrets packed = .ok (message, metadata) ∧
    metadata.authenticated ∧ message.from_ = some mediation ∧ message.type_ = recipientUpdate ∧
    message.body.get "updates" = some (.array updates) ∧ update ∈ updates ∧
    member "recipient_did" update = did ∧ member "action" update = "add" ∧
    update.get "proof" = some (.string token) ∧
    Proven prim mediator resolver readings mediation did token

/-- With proofs required a recipient that is not the mediation itself may be registered by a proven
update only. -/
theorem MayRegister.proven {prim : Primitives} {mediator : Mediator} {resolver : Resolver}
    {packed : String} {readings : ℕ → Prop} {mediation did : String}
    (h : MayRegister prim mediator resolver packed readings mediation did)
    (hproof : mediator.limits.recipientProof) (hne : did ≠ mediation) :
    ProvenUpdate prim mediator resolver packed readings mediation did := by
  obtain ⟨message, metadata, hunpack, hauth, hfrom, htype, updates, hupdates, update, hmem, hdid,
    haction, hmay⟩ := h
  obtain ⟨token, htoken, hproven⟩ := hmay hproof hne
  exact ⟨message, metadata, updates, update, token, hunpack, hauth, hfrom,
    htype, hupdates, hmem, hdid, haction, htoken, hproven⟩

section Runs

variable {σ : Type} {prim : Primitives} {mediator : Mediator} {registrar : Store.Registrar σ}

/-- A call that registers a DID makes its mediation the owner, and comes from a job that may. -/
theorem registers_step {s₀ : σ} {labels : List (Pool.Label Surroundings Job)}
    {c c' : Pool.Config Surroundings Job σ} {label : Pool.Label Surroundings Job}
    (hrun : Transition.Run (Pool.Step (system prim mediator registrar)) (.empty s₀) labels c)
    (hstep : Pool.Step (system prim mediator registrar) c label c') {did m : String}
    (hown : registrar.owner c'.shared did = some m) (hregisters : Registers did label) :
    ∃ i resolver packed session calls max,
      label = .call i (.receive resolver packed session) calls
        ⟨.store (.addRecipient m did max), .ok .added⟩ ∧
      MayRegister prim mediator resolver packed (fun now => ⟨.now, now⟩ ∈ calls) m did := by
  -- registering is one call of the store, answered that the DID was added
  obtain ⟨i, job, calls, m', max, rfl⟩ : ∃ i job calls m' max,
      label = .call i job calls ⟨.store (.addRecipient m' did max), .ok .added⟩ := by
    unfold Registers at hregisters
    split at hregisters
    · subst hregisters
      exact ⟨_, _, _, _, _, rfl⟩
    · exact hregisters.elim
  have hadded : registrar.owner c'.shared did = some m' := by
    cases hstep with
    | call _ hreply => exact registrar.added hreply
  obtain rfl : m = m' := by simpa [hown] using hadded
  have hcalls := Pool.callsMeet_of_run (P := readsClock) (fun _ _ _ _ => around_clock) hrun
  -- every clock this request read was below `maxClock`, so the age check did not wrap
  have hclock : ∀ now, Pool.Answered calls .now now → now < maxClock := by
    cases hstep with
    | call hthread _ => exact fun now hnow => hcalls i _ hthread _ hnow
  obtain ⟨resolver, packed, session, rfl, hmay⟩ :=
    hstep.guaranteed (Pool.unfolded_of_run hrun) (program_addsOnly hclock)
  exact ⟨i, resolver, packed, session, calls, max, rfl, hmay⟩

/-- Any other step leaves the owner of an owned DID. -/
theorem owner_before {c c' : Pool.Config Surroundings Job σ} {label : Pool.Label Surroundings Job}
    (hstep : Pool.Step (system prim mediator registrar) c label c') {did m : String}
    (hown : registrar.owner c'.shared did = some m) (hregisters : ¬ Registers did label) :
    registrar.owner c.shared did = some m := by
  -- only a call that adds the recipient can make it owned
  cases hstep with
  | @start i job s _ hstart =>
    obtain rfl : s = c.shared := hstart
    exact hown
  | @call i job calls op next r s _ hreply =>
    cases op with
    | store op =>
      rcases registrar.registered hreply hown with hbefore | ⟨max, hcall⟩
      · exact hbefore
      · cases hcall
        exact absurd rfl hregisters
    | now =>
      obtain rfl : s = c.shared := hreply.2
      exact hown
    | _ =>
      obtain rfl : s = c.shared := hreply
      exact hown
  | stop _ => exact hown
  | idle hidle => rwa [← registrar.idle_owner hidle]

/-- The last registration of a DID that is owned comes from its owner. -/
theorem exists_registration {s₀ : σ} (hempty : ∀ did, registrar.owner s₀ did = none)
    {labels : List (Pool.Label Surroundings Job)} {c : Pool.Config Surroundings Job σ}
    (hrun : Transition.Run (Pool.Step (system prim mediator registrar)) (.empty s₀) labels c)
    {did m : String} (hown : registrar.owner c.shared did = some m) :
    ∃ before after i resolver packed session calls max,
      labels = before ++ .call i (.receive resolver packed session) calls
        ⟨.store (.addRecipient m did max), .ok .added⟩ :: after ∧
      (∀ l ∈ after, ¬ Registers did l) ∧
      MayRegister prim mediator resolver packed (fun now => ⟨.now, now⟩ ∈ calls) m did := by
  -- the last step either registered the DID or left its owner
  induction hrun with
  | nil => simp [Pool.Config.empty, hempty] at hown
  | @snoc labels c c' label hrun hstep ih =>
    by_cases hregisters : Registers did label
    · obtain ⟨i, resolver, packed, session, calls, max, rfl, hmay⟩ :=
        registers_step hrun hstep hown hregisters
      exact ⟨labels, [], i, resolver, packed, session, calls, max, rfl, by simp, hmay⟩
    · obtain ⟨before, after, i, resolver, packed, session, calls, max, rfl, hafter, hmay⟩ :=
        ih (owner_before hstep hown hregisters)
      refine ⟨before, after ++ [label], i, resolver, packed, session, calls, max, by simp, ?_, hmay⟩
      rw [List.forall_mem_append]
      exact ⟨hafter, by simpa using hregisters⟩

/-- Nobody claims a DID without proof: however many messages are handled at once, whatever they say,
the update that registered a DID other than the mediation's own was authenticated as the mediation
and carried a proof signed by the DID. -/
theorem recipient_registered_with_proof (prim : Primitives) (mediator : Mediator)
    (hproof : mediator.limits.recipientProof) (registrar : Store.Registrar σ) {s₀ : σ}
    (hempty : ∀ did, registrar.owner s₀ did = none) {labels : List (Pool.Label Surroundings Job)}
    {c : Pool.Config Surroundings Job σ}
    (hrun : Transition.Run (Pool.Step (system prim mediator registrar)) (.empty s₀) labels c)
    {did m : String} (hown : registrar.owner c.shared did = some m) (hne : did ≠ m) :
    ∃ before after i resolver packed session calls max,
      labels = before ++ .call i (.receive resolver packed session) calls
        ⟨.store (.addRecipient m did max), .ok .added⟩ :: after ∧
      (∀ l ∈ after, ¬ Registers did l) ∧
      ProvenUpdate prim mediator resolver packed (fun now => ⟨.now, now⟩ ∈ calls) m did := by
  obtain ⟨before, after, i, resolver, packed, session, calls, max, hlabels, hafter, hmay⟩ :=
    exists_registration hempty hrun hown
  exact ⟨before, after, i, resolver, packed, session, calls, max, hlabels, hafter,
    hmay.proven hproof hne⟩

end Runs

/-! ### A registration -/

namespace RegistrationExample

open Didcomm.Loopback Loopback

/-- Two recipients per mediation, with proofs. -/
def limits : Limits where
  maxMessageBytes := 1000
  queue := ⟨60, 10, 1000⟩
  maxRecipientDids := 2
  pushMinIntervalSecs := 0
  recipientProof := true
  mediationTtlSecs := 0

/-- `did:ex:a` asks to register `did:ex:b`. -/
def message : Message :=
  (Message.new "1" 1000 recipientUpdate (.object [("updates", .array [.object
    [("recipient_did", .string "did:ex:b"), ("action", .string "add"),
     ("proof", .string "AA.AA.AA")]])])).withFrom "did:ex:a"

/-- The proof's claims. -/
def proof : PossessionProof := ⟨"did:ex:b", self, "did:ex:a", 990⟩

def prim : Primitives := packages (fun _ => ⟨"did:ex:a", message⟩) self proof

def withProofs : Mediator := mediator limits false none

/-- The message arrives. -/
def arrives : Job := .receive (resolver fun _ => []) (envelope 0) none

/-- The mediation of `did:ex:a` is granted. -/
def granted : Store.Inner := Store.Inner.empty.grantMediation "did:ex:a" 0

/-- The store afterwards. -/
def received : Store.Inner := ((arrives.program prim withProofs).run (calm 1000) granted).2

/-- After the update of the example `did:ex:b` is owned by `did:ex:a`. -/
theorem received_owner : received.owners "did:ex:b" = some "did:ex:a" := by
  have hhandle : handle prim withProofs (resolver fun _ => []) (envelope 0) none =
      handleUnpacked prim withProofs (resolver fun _ => [])
        message (metadata "did:ex:a" self) none :=
    handle_eq rfl rfl (by decide) rfl rfl rfl (by decide)
  rw [received, arrives, Job.program, hhandle]
  decide +kernel

/-- Receiving the message is a run. -/
theorem received_run : ∃ labels,
    Transition.Run (Pool.Step (system prim withProofs Store.memoryRegistrar))
    (.empty granted) labels (.empty received) :=
  ⟨_, Pool.run_of_executes 0 arrives rfl
    (executes_calm prim withProofs arrives (show 1000 < maxClock by decide) granted)⟩

end RegistrationExample

/-- A registration is a run, and is proven. -/
theorem recipient_registered_with_proof_example :
    ∃ labels, Transition.Run (Pool.Step (system RegistrationExample.prim
        RegistrationExample.withProofs Store.memoryRegistrar))
        (.empty RegistrationExample.granted) labels (.empty RegistrationExample.received) ∧
      ∃ before after i resolver packed session calls max,
        labels = before ++ .call i (.receive resolver packed session) calls
          ⟨.store (.addRecipient "did:ex:a" "did:ex:b" max), .ok .added⟩ :: after ∧
        (∀ l ∈ after, ¬ Registers "did:ex:b" l) ∧
        ProvenUpdate RegistrationExample.prim RegistrationExample.withProofs resolver packed
          (fun now => ⟨.now, now⟩ ∈ calls) "did:ex:a" "did:ex:b" := by
  obtain ⟨labels, hrun⟩ := RegistrationExample.received_run
  exact ⟨labels, hrun, recipient_registered_with_proof _ _ rfl Store.memoryRegistrar
    (fun _ => rfl) hrun RegistrationExample.received_owner (by decide)⟩

end Dispatch
