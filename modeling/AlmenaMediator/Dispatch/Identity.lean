import AlmenaMediator.Didcomm.Did.Rereading
import AlmenaMediator.Dispatch.Relay
import AlmenaMediator.Dispatch.Resolution

/-!
# The identity of a mediator

`identity.rs`: the `did:web` of the public origin, its keys and the DID document served at
`/.well-known/did.json`.

## Main results

* `published_resolves`: other mediators that fetch what is served resolve the DID to exactly our
  document.
-/

namespace Dispatch

open Didcomm Transport

/-- Path of the DIDComm WebSocket endpoint, relative to the public origin. -/
def wsPath : String := "/ws"

/-- The mediator's private keys. -/
structure Keys where
  ed25519 : SecretKey
  x25519 : SecretKey
  p384 : SecretKey
  /-- Both generating and reading keys see to their curves. -/
  ed25519_curve : ed25519.curve = .ed25519
  x25519_curve : x25519.curve = .x25519
  p384_curve : p384.curve = .p384

/-- `str::trim_start_matches` of a text that is not empty; `fuel` is at least how often it
matches. -/
def trimStartMatches (pat : List Char) : ℕ → List Char → List Char
  | 0, text => text
  | fuel + 1, text => if pat.isPrefixOf text then trimStartMatches pat fuel
      (text.drop pat.length) else text

/-- The URL of the WebSocket endpoint: https → wss, http → ws. -/
def wsUrl (publicUrl : String) : String :=
  "ws" ++ String.ofList (trimStartMatches "http".toList publicUrl.toList.length publicUrl.toList) ++
    wsPath

def Identity.kid (did fragment : String) : String := did ++ "#" ++ fragment

variable (prim : Primitives)

/-- The document of a mediator's DID. -/
def Keys.document (keys : Keys) (did publicUrl : String) : DidDocument :=
  let method fragment (key : SecretKey) : VerificationMethod :=
    ⟨Identity.kid did fragment, did, key.publicKey prim⟩
  { id := did
    alsoKnownAs := []
    verificationMethod := [method "key-ed25519" keys.ed25519, method "key-x25519" keys.x25519,
      method "key-p384" keys.p384]
    authentication := [Identity.kid did "key-ed25519"]
    assertionMethod := [Identity.kid did "key-ed25519"]
    keyAgreement := [Identity.kid did "key-x25519", Identity.kid did "key-p384"]
    service := [{
      id := Identity.kid did "didcomm"
      kind := "DIDCommMessaging"
      endpoint := .array [
        .object [("uri", .string (publicUrl ++ didcommPath)),
          ("accept", .array [.string "didcomm/v2"])],
        .object [("uri", .string (wsUrl publicUrl)),
          ("accept", .array [.string "didcomm/v2"])]] }] }

/-- `InMemorySecrets`, the last of which counts. -/
def inMemorySecrets (secrets : List (String × SecretKey)) : Secrets := fun kid =>
  .ok ((secrets.reverse.find? fun e => e.1 == kid).map Prod.snd)

/-- `Identity::new`. -/
def Identity.new (keys : Keys) (publicUrl : String) : Result Identity := do
  let did ← didFromOrigin publicUrl
  pure
    { did := did
      document := keys.document prim did publicUrl
      secrets := inMemorySecrets [(Identity.kid did "key-ed25519", keys.ed25519),
        (Identity.kid did "key-x25519", keys.x25519), (Identity.kid did "key-p384", keys.p384)] }

variable {prim} {keys : Keys} {publicUrl : String} {identity : Identity}

/-- An identity that is made has the DID of the origin, the document of its keys and the keys as its
secrets. -/
theorem Identity.new_eq_ok (h : Identity.new prim keys publicUrl = .ok identity) :
    didFromOrigin publicUrl = .ok identity.did ∧
      identity.document = keys.document prim identity.did publicUrl ∧
      identity.secrets = inMemorySecrets [(Identity.kid identity.did "key-ed25519", keys.ed25519),
        (Identity.kid identity.did "key-x25519", keys.x25519),
          (Identity.kid identity.did "key-p384", keys.p384)] := by
  obtain ⟨did, hdid, h⟩ := bind_eq_ok.mp h
  obtain rfl := pure_eq_ok.mp h
  exact ⟨hdid, rfl, rfl⟩

namespace IdentityExample

def made : Keys where
  ed25519 := ⟨.ed25519, List.replicate 32 1⟩
  x25519 := ⟨.x25519, List.replicate 32 2⟩
  p384 := ⟨.p384, List.replicate 48 3⟩
  ed25519_curve := rfl
  x25519_curve := rfl
  p384_curve := rfl

/-- An identity is made of the keys and the origin of the example. -/
theorem identity_eq_ok :
    ∃ identity, Identity.new Transparent.packages made "https://b.example" = .ok identity ∧
    identity.did = "did:web:b.example" := by
  have hdid : didFromOrigin "https://b.example" = .ok "did:web:b.example" := by decide +kernel
  exact ⟨_, bind_eq_ok.mpr ⟨_, hdid, rfl⟩, rfl⟩

end IdentityExample

/-! ## What is published -/

/-- A text begins with what was put before it. -/
theorem startsWith_append (start rest : String) : startsWith (start ++ rest) start := by
  rw [startsWith, List.isPrefixOf_iff_prefix, String.toList_append]
  exact List.prefix_append _ _

/-- Ids under a DID are absolute. -/
theorem absolute_kid {did : String} (hdid : startsWith did "did:web:") (fragment : String) :
    DidDocument.absolute did (Identity.kid did fragment) = Identity.kid did fragment := by
  rw [startsWith, List.isPrefixOf_iff_prefix] at hdid
  obtain ⟨rest, hrest⟩ := hdid
  have hstart : startsWith (Identity.kid did fragment) "#" = false := by
    rw [startsWith, Identity.kid, String.toList_append, String.toList_append, ← hrest]
    rfl
  rw [DidDocument.absolute, hstart]
  rfl

/-- The keys that were generated or read are public keys that can be read. -/
def Keys.Readable (prim : Primitives) (keys : Keys) : Prop :=
  ∀ key ∈ [keys.ed25519, keys.x25519, keys.p384], (key.publicKey prim).Read prim

/-- The document of readable keys under a did:web is in the normal form in which documents are read.
-/
theorem normal_document (hkeys : keys.Readable prim) {did : String}
    (hdid : startsWith did "did:web:") : (keys.document prim did publicUrl).Normal prim := by
  have habsolute := absolute_kid hdid
  have hread : (keys.ed25519.publicKey prim).Read prim ∧ (keys.x25519.publicKey prim).Read prim ∧
      (keys.p384.publicKey prim).Read prim := by simpa [Keys.Readable] using hkeys
  constructor <;> simp [Keys.document, habsolute, hread, Value.isObject, Value.asObject]

/-- A `did:web` that the cache and the network have only one document for resolves to it. -/
theorem resolution_ok {base58 : Base58} {other : Mediator}
    {rely : (lookup : Lookup) → lookup.Reply → Prop} {did url : String} {json : Value}
    {doc : DidDocument} (hfederation : other.federation = true)
    (hother : did ≠ other.identity.document.id) (hweb : startsWith did "did:web:")
    (hurl : documentUrl did = .ok url) (hdoc : DidDocument.fromJson prim base58 json = .ok doc)
    (hid : doc.id = did)
    (hlocal : ∀ result, rely (.inLocal did) result → result = .error (.didNotFound did))
    (hcached : ∀ found, rely (.cached did) (some found) → found = doc)
    (hfetched : ∀ answer, rely (.getJson url) answer → answer = .ok json) :
    (resolution prim base58 other did).Ensures rely
      (fun lookup : Lookup => ∀ result, lookup = .answer did result → result = .ok doc)
        fun _ => True := by
  rw [resolution, Program.ensures_bind]
  suffices hresolver : (resolver prim base58 other did).Ensures rely
      (fun lookup : Lookup => ∀ result, lookup = .answer did result → result = .ok doc)
        fun result => result = .ok doc by
    refine hresolver.imp fun result hresult =>
      ensures_ask.mpr ⟨fun result' heq => ?_, fun _ _ => trivial⟩
    cases heq
    exact hresult
  have hstatic : staticResolver [other.identity.document] did =
    pure (.error (.didNotFound did)) := by
    simp [staticResolver, Ne.symm hother, okOr]
  rw [resolver, if_pos hfederation]
  -- neither the own document nor the local methods know the DID; the web resolver does
  refine ensures_chainResolver_cons ?_ (ensures_chainResolver_cons ?_ (ensures_chainResolver_ok ?_))
  · rw [hstatic]
    exact fun hfound => absurd rfl (hfound _)
  · refine ensures_ask.mpr ⟨by simp, fun result hresult hfound => ?_⟩
    exact absurd (hlocal result hresult) (hfound _)
  · exact ensures_webResolver_ok hweb hurl hdoc hid ⟨by simp, by simp, by simp⟩ hcached hfetched

/-- Other mediators with federation that get what a mediator serves, whenever they ask for the
document of its DID, resolve the DID to exactly its document. -/
theorem published_resolves {base58 : Base58} {toMontgomery : Bytes → Bytes}
    (h : Identity.new prim keys publicUrl = .ok identity) (hkeys : keys.Readable prim)
    (hrereads : ∀ key : PublicKey, key.Read prim →
      PublicKey.fromJwk prim (key.toJwk prim) = .ok key) {other : Mediator}
      (hfederation : other.federation = true) (hother : identity.did ≠ other.identity.document.id)
      {now : ℕ} {history : Resolved} {c : Pool.Config Lookups String Resolvers}
    (hrun : Transition.Run (Pool.Step (resolutions prim base58 toMontgomery other))
      (.empty (.new now)) history c)
      (hserved : ∀ i task before url answer, documentUrl identity.did = .ok url →
      .call i task before ⟨.getJson url, answer⟩ ∈ history →
        answer = .ok (identity.document.toJson prim)) {i : ℕ} {task : String}
        {before : List (Call Lookups)} {result : Result DidDocument}
        (hanswer : .call i task before ⟨.answer identity.did result, ()⟩ ∈ history) :
    result = .ok identity.document := by
  obtain ⟨hdid, hdocument, -⟩ := Identity.new_eq_ok h
  obtain ⟨host, hhost, hescaped⟩ := didFromOrigin_eq_ok.mp hdid
  have hweb : startsWith identity.did "did:web:" := hescaped ▸ startsWith_append _ _
  obtain ⟨url, hurl⟩ : ∃ url, documentUrl identity.did = .ok url :=
    ⟨_, hescaped ▸ documentUrl_escapeColons (originHost_ne_nil hhost)⟩
  have hdoc : DidDocument.fromJson prim base58 (identity.document.toJson prim) =
    .ok identity.document := by
    rw [hdocument]
    exact DidDocument.fromJson_toJson hrereads (normal_document hkeys hweb)
  have hid : identity.document.id = identity.did := by rw [hdocument]; rfl
  -- the step that answers, and what its task was told before
  obtain ⟨earlier, later, rfl⟩ := List.append_of_mem hanswer
  obtain ⟨c₁, c₂, hbefore, hstep, -⟩ := hrun.middle_inv
  have hreplies := (wellServed_of_run hbefore).1
  obtain ⟨rfl, -⟩ := permitted_step hbefore hreplies hstep
  have hcalled : ∀ {lookup r}, Pool.Answered before lookup r →
      ∃ made, Pool.Label.call i identity.did made ⟨lookup, r⟩ ∈ earlier := by
    intro lookup r hr
    cases hstep with
    | call hthread _ => exact Pool.called_of_run hbefore hthread hr
  have hreliable : ∀ {lookup r}, Pool.Answered before lookup r →
    Reliable prim base58 toMontgomery earlier lookup r := by
    intro lookup r hr
    obtain ⟨made, hmade⟩ := hcalled hr
    exact hreplies i _ made _ hmade
  refine hstep.guaranteed (Pool.unfolded_of_run hbefore)
    (resolution_ok hfederation hother hweb hurl hdoc hid (fun result hresult => ?_)
      (fun found hfound => ?_) fun answer hanswer => ?_) result rfl
  · obtain ⟨known, -, hlocal⟩ := hreliable hresult
    rw [← hlocal, resolve_web hweb]
  · -- what is in the cache was fetched from the same URL
    obtain ⟨url', json, hurl', ⟨j, task, made, hgot⟩, hread⟩ := (hreliable hfound found rfl).got
    have hjson := hserved j task made url' _ hurl' (List.mem_append_left _ hgot)
    rw [Except.ok.inj hjson, hdoc] at hread
    exact (Except.ok.inj hread).symm
  · obtain ⟨made, hmade⟩ := hcalled hanswer
    exact hserved i _ made url answer hurl (List.mem_append_left _ hmade)

/-- The document published at the other origin of the example is fetched and resolved as it is. -/
theorem published_resolves_b : ∃ identity history c,
    Identity.new Transparent.packages IdentityExample.made "https://b.example" = .ok identity ∧
      Transition.Run (Pool.Step (resolutions Transparent.packages bs58 id FetchingExample.here))
      (.empty (.new 0)) history c ∧
      ∃ i task before result, .call i task before ⟨.answer identity.did result, ()⟩ ∈ history ∧
        result = .ok identity.document := by
  obtain ⟨identity, h, hdid⟩ := IdentityExample.identity_eq_ok
  obtain ⟨-, hdocument, -⟩ := Identity.new_eq_ok h
  have hrereads : ∀ key : PublicKey, key.Read Transparent.packages →
      PublicKey.fromJwk Transparent.packages (key.toJwk Transparent.packages) = .ok key :=
    fun _ => Transparent.fromJwk_toJwk
  have hkeys : IdentityExample.made.Readable Transparent.packages := fun key _ =>
    Transparent.read_publicKey key
  have hweb : startsWith identity.did "did:web:" := by rw [hdid]; decide
  have hurl : documentUrl identity.did = .ok FetchingExample.url := by rw [hdid]; decide +kernel
  have hother : identity.did ≠ FetchingExample.here.identity.document.id := by rw [hdid]; decide
  have hdoc : DidDocument.fromJson Transparent.packages bs58
    (identity.document.toJson Transparent.packages) =
      .ok identity.document := by
    rw [hdocument]
    exact DidDocument.fromJson_toJson hrereads (normal_document hkeys hweb)
  have hid : identity.document.id = identity.did := by rw [hdocument]; rfl
  -- the other mediator fetches the document at its URL
  have hrun := @run_fetching Transparent.packages bs58 id FetchingExample.here
    identity.did identity.document
    FetchingExample.url (identity.document.toJson Transparent.packages) rfl
      hother hweb hurl hdoc hid 0
  have hanswer : Pool.Label.call 0 identity.did ((fetching identity.did FetchingExample.url
      (identity.document.toJson Transparent.packages) identity.document).take 4)
      ⟨.answer identity.did (.ok identity.document), ()⟩ ∈ Pool.Label.start 0 identity.did ::
        Pool.finishing 0 identity.did [] (fetching identity.did FetchingExample.url
          (identity.document.toJson Transparent.packages) identity.document) := by
    simp [fetching, Pool.finishing]
  refine ⟨identity, _, _, h, hrun, 0, _, _, _, hanswer, ?_⟩
  refine published_resolves h hkeys hrereads rfl hother hrun
    (fun i task before url answer _ hasked => ?_) hanswer
  rcases List.mem_cons.mp hasked with hasked | hasked
  · cases hasked
  · obtain ⟨-, hserved⟩ : url = FetchingExample.url ∧ answer = _ := by
      simpa [fetching] using Pool.mem_finishing hasked
    exact hserved

end Dispatch
