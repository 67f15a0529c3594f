import AlmenaMediator.Didcomm.Did.OwnKeys
import AlmenaMediator.Dispatch.Basic
import AlmenaMediator.Transport.WebResolver

/-!
# Resolving DIDs

The resolver that `Mediator::new` builds: our own `did:web` from memory, `did:key` and `did:peer`
locally, other `did:web` DIDs over HTTPS when federation is on. Any number of resolutions go on at
once and share the local resolver and the cache of fetched documents; the network answers what it
wants.

## Main results

* `resolution_authentic`: a DID resolves only to a document that is its own;
* `network_asked`: what the network is asked for;
* `cached_fresh`: what comes from the cache was the last document stored, and not long ago.
-/

namespace Dispatch

open Didcomm Transport

variable (prim : Primitives) (base58 : Base58) (toMontgomery : Bytes → Bytes) (mediator : Mediator)

/-- The resolver of a mediator. -/
def resolver : DidResolver :=
  chainResolver ([staticResolver [mediator.identity.document], localResolver] ++
    if mediator.federation then [webResolver prim base58] else [])

/-- Resolves a DID for somebody. -/
def resolution (did : String) : Program Lookups Unit := do
  let result ← resolver prim base58 mediator did
  ask (.answer did result)

/-- Resolutions that run at once. Time only goes forward. -/
def resolutions : Pool.System Lookups String Resolvers where
  program := resolution prim base58 mediator
  start _ _ s t := t = s
  env _ := Resolvers.Answers prim base58 toMontgomery
  idle c t := ∃ passed, t = { c.shared with now := c.shared.now + passed }

/-- What happened in a pool of resolutions. -/
abbrev Resolved : Type := List (Pool.Label Lookups String)

/-! ## Authentic documents -/

/-- A DID that is its own document, or a hash of it, resolves to that document. -/
inductive SelfCertified (did : String) (doc : DidDocument) : Prop
  | key : resolveKey prim base58 toMontgomery did = .ok doc → SelfCertified did doc
  | peer2 : resolvePeer2 prim base58 did = .ok doc → SelfCertified did doc
  | peer4 (long : String) : long = did ∨ peer4Short long = .ok did →
      resolvePeer4 prim base58 long did = .ok doc → SelfCertified did doc

/-- The network answered a request with this JSON. -/
def Downloaded (history : Resolved) (url : String) (json : Value) : Prop :=
  ∃ i task before, .call i task before ⟨.getJson url, .ok json⟩ ∈ history

/-- The document of a `did:web` came from its URL and is the document of that DID. -/
structure Fetched (history : Resolved) (did : String) (doc : DidDocument) : Prop where
  web : startsWith did "did:web:"
  got : ∃ url json, documentUrl did = .ok url ∧ Downloaded history url json ∧
    DidDocument.fromJson prim base58 json = .ok doc
  id : doc.id = did

/-- Where a document may come from. -/
inductive Authentic (history : Resolved) (did : String) (doc : DidDocument) : Prop
  | own : did = mediator.identity.document.id → doc = mediator.identity.document →
      Authentic history did doc
  | selfCertified : did ≠ mediator.identity.document.id →
      SelfCertified prim base58 toMontgomery did doc →
      Authentic history did doc
  | fetched : did ≠ mediator.identity.document.id → mediator.federation = true →
      Fetched prim base58 history did doc → Authentic history did doc

variable {prim base58 toMontgomery mediator} {history : Resolved} {did : String} {doc : DidDocument}

/-- What the local resolver answers certifies itself. -/
theorem selfCertified_resolve {known : LocalResolver} (hfiled : known.Filed)
    (h : (LocalResolver.resolve prim base58 toMontgomery did known).1 = .ok doc) :
    SelfCertified prim base58 toMontgomery did doc := by
  unfold LocalResolver.resolve at h
  split_ifs at h with hkey hpeer2
  · exact .key h
  · exact .peer2 h
  split at h
  · split_ifs at h with hcolon
    · split at h
      · exact .peer4 did (.inl rfl) h
      · cases h
    · split at h
      · rename_i long hlong
        exact .peer4 long (.inr (hfiled.longForm hlong)) h
      · cases h
  · cases h

/-- A document that certifies itself has the DID it was asked for. -/
theorem SelfCertified.id [base58.Strict] (h : SelfCertified prim base58 toMontgomery did doc) :
    doc.id = did := by
  cases h with
  | key h => exact (fit_resolveKey h).id
  | peer2 h => exact (listsOwn_resolvePeer2 h).id
  | peer4 long _ h => exact id_of_resolvePeer4 h

/-- What was downloaded stays downloaded as the history goes on. -/
theorem Downloaded.mono {history' : Resolved} {url : String} {json : Value}
    (h : Downloaded history url json) (hsub : history ⊆ history') :
    Downloaded history' url json := by
  obtain ⟨i, task, before, hmem⟩ := h
  exact ⟨i, task, before, hsub hmem⟩

/-- What was fetched stays fetched as the history goes on. -/
theorem Fetched.mono {history' : Resolved} (h : Fetched prim base58 history did doc)
    (hsub : history ⊆ history') : Fetched prim base58 history' did doc := by
  obtain ⟨url, json, hurl, hgot, hdoc⟩ := h.got
  exact ⟨h.web, ⟨url, json, hurl, hgot.mono hsub, hdoc⟩, h.id⟩

/-! ## One resolution -/

/-- The replies that a resolution gets. -/
def Reliable (prim : Primitives) (base58 : Base58) (toMontgomery : Bytes → Bytes)
    (history : Resolved) : (lookup : Lookup) → lookup.Reply → Prop
  | .inLocal did, result => ∃ known : LocalResolver, known.Filed ∧
      (LocalResolver.resolve prim base58 toMontgomery did known).1 = result
  | .cached did, found => ∀ doc, found = some doc → Fetched prim base58 history did doc
  | .getJson url, answer => ∀ json, answer = .ok json → Downloaded history url json
  | .remember .., _ => True
  | .answer .., _ => True

/-- What a resolution of a DID calls. -/
def Permitted (prim : Primitives) (base58 : Base58) (toMontgomery : Bytes → Bytes)
    (mediator : Mediator) (history : Resolved) (did : String) : Lookup → Prop
  | .getJson url => mediator.federation = true ∧ did ≠ mediator.identity.document.id ∧
      startsWith did "did:web:" ∧ documentUrl did = .ok url
  | .remember did' doc => did' = did ∧ Fetched prim base58 history did doc
  | .answer did' result => did' = did ∧ ∀ doc, result = .ok doc →
      Authentic prim base58 toMontgomery mediator history did doc
  | _ => True

/-- A reply that is reliable after a history is reliable after a longer one. -/
theorem Reliable.mono {history' : Resolved} {lookup : Lookup} {r : lookup.Reply}
    (h : Reliable prim base58 toMontgomery history lookup r) (hsub : history ⊆ history') :
    Reliable prim base58 toMontgomery history' lookup r := by
  cases lookup with
  | cached did => exact fun doc hdoc => (h doc hdoc).mono hsub
  | getJson url => exact fun json hjson => (h json hjson).mono hsub
  | _ => exact h

/-- A resolution asks for nothing but what it is permitted to ask for. -/
theorem resolution_permitted (did : String) :
    (resolution prim base58 mediator did).Ensures (Reliable prim base58 toMontgomery history)
      (Permitted prim base58 toMontgomery mediator history did) fun _ => True := by
  rw [resolution, Program.ensures_bind]
  suffices hresolver : (resolver prim base58 mediator did).Ensures
    (Reliable prim base58 toMontgomery history)
      (Permitted prim base58 toMontgomery mediator history did) fun result =>
        ∀ doc, result = .ok doc →
        Authentic prim base58 toMontgomery mediator history did doc from
    hresolver.imp fun result hresult => ensures_ask.mpr ⟨⟨rfl, hresult⟩, fun _ _ => trivial⟩
  by_cases hown : did = mediator.identity.document.id
  · -- the chain ends with the static resolver
    have hstatic : staticResolver [mediator.identity.document] did =
      pure (.ok mediator.identity.document) := by
      simp [staticResolver, hown, okOr]
    rw [resolver, List.cons_append, chainResolver, hstatic]
    intro doc hdoc
    exact .own hown (Except.ok.inj hdoc).symm
  have hstatic : staticResolver [mediator.identity.document] did =
    pure (.error (.didNotFound did)) := by
    simp [staticResolver, Ne.symm hown, okOr]
  rw [resolver]
  -- a foreign DID: not static, then by what it says of itself, then over the network
  refine ensures_chainResolver_cons ?_ (ensures_chainResolver_cons ?_ ?_)
  · rw [hstatic]
    exact fun hfound => absurd rfl (hfound did)
  · refine ensures_ask.mpr ⟨trivial, fun result hresult _ doc hdoc => ?_⟩
    obtain ⟨known, hfiled, rfl⟩ := hresult
    exact .selfCertified hown (selfCertified_resolve hfiled hdoc)
  split_ifs with hfederation
  swap
  · intro doc hdoc
    cases hdoc
  refine ensures_chainResolver_cons ?_ (fun doc hdoc => by cases hdoc)
  refine ensures_webResolver (fun hweb => ⟨trivial, fun doc hdoc _ doc' hdoc' => ?_⟩)
    (fun url hweb hurl => ⟨⟨hfederation, hown, hweb, hurl⟩, fun json doc hjson hdoc hid => ?_⟩)
    fun error _ doc hdoc => ?_
  · obtain rfl := Except.ok.inj hdoc'
    exact .fetched hown hfederation (hdoc doc rfl)
  · have hfetched : Fetched prim base58 history did doc :=
      ⟨hweb, ⟨url, json, hurl, hjson json rfl, hdoc⟩, hid⟩
    refine ⟨⟨rfl, hfetched⟩, fun _ doc' hdoc' => ?_⟩
    obtain rfl := Except.ok.inj hdoc'
    exact .fetched hown hfederation hfetched
  · cases hdoc

/-! ## A resolution over the network -/

/-- The local resolver does not know any `did:web`. -/
theorem resolve_web (hweb : startsWith did "did:web:")
    (known : LocalResolver) :
    LocalResolver.resolve prim base58 toMontgomery did known =
      (.error (.didNotFound did), known) := by
  rw [startsWith, List.isPrefixOf_iff_prefix] at hweb
  obtain ⟨rest, hrest⟩ := hweb
  have hkey : startsWith did "did:key:" = false := by
    rw [startsWith, ← hrest]
    rfl
  have hpeer2 : startsWith did "did:peer:2." = false := by
    rw [startsWith, ← hrest]
    rfl
  have hpeer4 : stripPrefix did "did:peer:4" = none := by
    rw [stripPrefix, startsWith, ← hrest]
    rfl
  simp only [LocalResolver.resolve, hkey, hpeer2, hpeer4, Bool.false_eq_true, ↓reduceIte]

/-- What a resolution calls that fetches its document. -/
def fetching (did url : String) (json : Value) (doc : DidDocument) : List (Call Lookups) :=
  [⟨.inLocal did, .error (.didNotFound did)⟩, ⟨.cached did, none⟩, ⟨.getJson url, .ok json⟩,
    ⟨.remember did doc, ()⟩, ⟨.answer did (.ok doc), ()⟩]

/-- A new mediator with federation can resolve the `did:web` of another one, when that's document is
served. -/
theorem run_fetching {url : String} {json : Value} (hfederation : mediator.federation = true)
    (hother : did ≠ mediator.identity.document.id) (hweb : startsWith did "did:web:")
    (hurl : documentUrl did = .ok url) (hdoc : DidDocument.fromJson prim base58 json = .ok doc)
    (hid : doc.id = did) (now : ℕ) :
    Transition.Run (Pool.Step (resolutions prim base58 toMontgomery mediator)) (.empty (.new now))
      (.start 0 did :: Pool.finishing 0 did [] (fetching did url json doc))
      (.empty ((Resolvers.new now).remember did doc)) := by
  have hstatic : staticResolver [mediator.identity.document] did =
    pure (.error (.didNotFound did)) := by
    simp [staticResolver, Ne.symm hother, okOr]
  -- the resolver of self-certified DIDs does not know the method
  have hlocal : Resolvers.Answers prim base58 toMontgomery (.new now)
      ⟨.inLocal did, (LocalResolver.resolve prim base58 toMontgomery did LocalResolver.new).1⟩
        (.new now) := by
    have hsame : (LocalResolver.resolve prim base58 toMontgomery did LocalResolver.new).2 =
      LocalResolver.new :=
      congrArg Prod.snd (resolve_web hweb _)
    have hanswers := @Resolvers.Answers.inLocal prim base58 toMontgomery (.new now) did
    rwa [Resolvers.new, hsame] at hanswers
  rw [congrArg Prod.fst (resolve_web hweb _)] at hlocal
  have hexecutes : Program.Executes (Resolvers.Answers prim base58 toMontgomery)
    (resolution prim base58 mediator did)
      (.new now) (fetching did url json doc) () ((Resolvers.new now).remember did doc) := by
    simp only [resolution, resolver, hfederation, ↓reduceIte, List.cons_append,
      List.nil_append, chainResolver, hstatic, webResolver, hweb,
        Program.pure_eq, Program.done_bind]
    -- not in the cache either: the document is fetched, remembered and answered
    refine Program.Executes.call hlocal ?_
    refine Program.Executes.call (Resolvers.Answers.cached _ did) ?_
    simp only [Program.bind, hurl]
    refine Program.Executes.call (Resolvers.Answers.getJson _ url _) ?_
    simp only [Program.bind, hdoc, hid, ne_eq, not_true_eq_false, ↓reduceIte]
    refine Program.Executes.call (Resolvers.Answers.remember _ did doc) ?_
    exact Program.Executes.call (Resolvers.Answers.answer _ did (.ok doc)) .done
  exact Pool.run_of_executes 0 did rfl hexecutes

namespace FetchingExample

/-- A document with nothing in it. -/
def emptyDocument (did : String) : DidDocument where
  id := did
  alsoKnownAs := []
  verificationMethod := []
  authentication := []
  assertionMethod := []
  keyAgreement := []
  service := []

/-- A mediator with federation. -/
def here : Mediator where
  identity := ⟨"did:web:a.example", emptyDocument "did:web:a.example", fun _ => .ok none⟩
  limits := ⟨1000, ⟨60, 10, 1000⟩, 2, 0, true, 0⟩
  federation := true
  pusher := none

/-- The document of another one. -/
def there : DidDocument := emptyDocument "did:web:b.example"

def served : Value := .object [("id", .string "did:web:b.example")]

def url : String := "https://b.example/.well-known/did.json"

def calls : List (Call Lookups) := fetching there.id url served there

/-- The other one's document is fetched. -/
theorem run : Transition.Run (Pool.Step (resolutions Transparent.packages bs58 id here))
    (.empty (.new 0)) (.start 0 there.id :: Pool.finishing 0 there.id [] calls)
    (.empty ((Resolvers.new 0).remember there.id there)) :=
  run_fetching rfl (by decide) (by decide) (by decide +kernel) rfl rfl 0

end FetchingExample

/-! ## Runs -/

/-- What the resolvers keep is in order. -/
structure InOrder (prim : Primitives) (base58 : Base58) (history : Resolved)
    (known : Resolvers) : Prop where
  filed : known.localResolver.Filed
  cache : ∀ e ∈ known.cache, Fetched prim base58 history e.did e.doc

/-- The lookups were answered as a resolution needs them. -/
def WellServed (prim : Primitives) (base58 : Base58) (toMontgomery : Bytes → Bytes)
    (history : Resolved) : Prop :=
  ∀ i task before, ∀ k : Call Lookups, .call i task before k ∈ history →
    Reliable prim base58 toMontgomery history k.op k.reply

/-- Resolvers that are in order stay in order as the history goes on. -/
theorem InOrder.mono {history' : Resolved} {known : Resolvers}
    (h : InOrder prim base58 history known) (hsub : history ⊆ history') :
    InOrder prim base58 history' known :=
  ⟨h.filed, fun e he => (h.cache e he).mono hsub⟩

/-- What the cache answers was fetched. -/
theorem InOrder.cached {known : Resolvers} (h : InOrder prim base58 history known)
    (hfound : known.cached did = some doc) : Fetched prim base58 history did doc := by
  obtain ⟨e, he, rfl⟩ := Option.map_eq_some_iff.mp hfound
  obtain ⟨hfind, -⟩ := Option.filter_eq_some_iff.mp he
  have hdid : e.did = did := by simpa using List.find?_some hfind
  exact hdid ▸ h.cache e (List.mem_of_find?_eq_some hfind)

/-- Remembering a document that was fetched keeps the resolvers in order. -/
theorem InOrder.remember {known : Resolvers} (h : InOrder prim base58 history known)
    (hdoc : Fetched prim base58 history did doc) :
    InOrder prim base58 history (known.remember did doc) := by
  refine ⟨h.filed, fun e he => ?_⟩
  rcases List.mem_cons.mp he with rfl | he
  · exact hdoc
  · have hmem := List.mem_of_mem_filter he
    split at hmem
    · cases hmem
    · exact h.cache e hmem

section Runs

variable {now : ℕ} {c c' : Pool.Config Lookups String Resolvers}

/-- A call of a resolution is permitted when the history was served as it needs. -/
theorem permitted_step
    (hrun : Transition.Run (Pool.Step (resolutions prim base58 toMontgomery mediator))
      (.empty (.new now)) history c) (hserved : WellServed prim base58 toMontgomery history) {i : ℕ}
      {task : String} {before : List (Call Lookups)} {k : Call Lookups}
      (hstep : Pool.Step (resolutions prim base58 toMontgomery mediator) c
        (.call i task before k) c') :
        Permitted prim base58 toMontgomery mediator history task k.op := by
  have hmade : ∀ lookup r, Pool.Answered before lookup r →
    Reliable prim base58 toMontgomery history lookup r := by
    intro lookup r hr
    cases hstep with
    | call hthread _ =>
      obtain ⟨before', hmem⟩ := Pool.called_of_run hrun hthread hr
      exact hserved i task before' _ hmem
  exact hstep.guaranteed (Pool.unfolded_of_run hrun)
    ((resolution_permitted task).mono hmade (fun _ h => h) fun _ h => h)

/-- One more call is answered as a resolution needs, and leaves what is kept in order. -/
theorem inOrder_answers {known known' : Resolvers} {i : ℕ} {task : String}
    {before : List (Call Lookups)} {k : Call Lookups} (horder : InOrder prim base58 history known)
    (hpermitted : Permitted prim base58 toMontgomery mediator history task k.op)
    (hanswers : Resolvers.Answers prim base58 toMontgomery known k known') :
    Reliable prim base58 toMontgomery (history ++ [.call i task before k]) k.op k.reply ∧
      InOrder prim base58 (history ++ [.call i task before k]) known' := by
  have hsub : history ⊆ history ++ [Pool.Label.call i task before k] := List.subset_append_left _ _
  have hlast : Pool.Label.call i task before k ∈ history ++ [Pool.Label.call i task before k] := by
    simp
  -- only what the step added to the history, or remembered, is new
  cases hanswers with
  | inLocal did =>
    refine ⟨⟨known.localResolver, horder.filed, rfl⟩, ?_⟩
    exact ⟨horder.filed.resolve did, fun e he => (horder.cache e he).mono hsub⟩
  | cached did => exact ⟨fun doc hdoc => (horder.cached hdoc).mono hsub, horder.mono hsub⟩
  | getJson url answer =>
    refine ⟨fun json hjson => ⟨i, task, before, ?_⟩, horder.mono hsub⟩
    subst hjson
    exact hlast
  | remember did doc =>
    obtain ⟨rfl, hfetched⟩ := hpermitted
    exact ⟨trivial, (horder.remember hfetched).mono hsub⟩
  | answer did result => exact ⟨trivial, horder.mono hsub⟩

/-- In every run every resolution is well served, and the resolvers are in order. -/
theorem wellServed_of_run
    (hrun : Transition.Run (Pool.Step (resolutions prim base58 toMontgomery mediator))
      (.empty (.new now)) history c) :
      WellServed prim base58 toMontgomery history ∧ InOrder prim base58 history c.shared := by
  induction hrun with
  | nil =>
    refine ⟨fun _ _ _ _ hmem => by simp at hmem, fun e he => ?_, fun e he => ?_⟩
    · simp [Pool.Config.empty, Resolvers.new, LocalResolver.new] at he
    · simp [Pool.Config.empty, Resolvers.new] at he
  | @snoc history c c' label hrun hstep ih =>
    obtain ⟨hserved, horder⟩ := ih
    have hsub : history ⊆ history ++ [label] := List.subset_append_left _ _
    have hbefore : ∀ i task before k, Pool.Label.call i task before k ∈ history →
        Reliable prim base58 toMontgomery (history ++ [label]) k.op k.reply :=
      fun i task before k hmem => (hserved i task before k hmem).mono hsub
    -- a step that calls nothing leaves every answer as it was
    have hother : (∀ i task before k, label ≠ Pool.Label.call i task before k) →
        WellServed prim base58 toMontgomery (history ++ [label]) := by
      intro hlabel i task before k hmem
      rcases List.mem_append.mp hmem with hmem | hmem
      · exact hbefore i task before k hmem
      · exact absurd (List.mem_singleton.mp hmem).symm (hlabel i task before k)
    cases hstep with
    | start hthread hstart =>
      obtain rfl := hstart
      exact ⟨hother (by simp), horder.mono hsub⟩
    | @call i task before op next r s hthread hanswers =>
      have hpermitted := permitted_step hrun hserved (Pool.Step.call hthread hanswers)
      obtain ⟨hreply, hnext⟩ :=
        @inOrder_answers _ _ _ _ _ _ _ i task before ⟨op, r⟩ horder hpermitted hanswers
      refine ⟨fun i' task' before' k hmem => ?_, hnext⟩
      rcases List.mem_append.mp hmem with hmem | hmem
      · exact hbefore i' task' before' k hmem
      · obtain ⟨-, -, -, rfl⟩ := Pool.Label.call.inj (List.mem_singleton.mp hmem)
        exact hreply
    | stop hthread => exact ⟨hother (by simp), horder.mono hsub⟩
    | @idle s hidle =>
      obtain ⟨passed, rfl⟩ := hidle
      exact ⟨hother (by simp), (horder.mono hsub).filed, (horder.mono hsub).cache⟩

/-- Whatever the network answers and whatever else is resolved at the same time, a DID resolves only
to a document of its own: ours, one that it certifies itself, or one fetched from its URL before. -/
theorem resolution_authentic [base58.Strict] {i : ℕ} {task : String} {before : List (Call Lookups)}
    {u : Unit}
    (hrun : Transition.Run (Pool.Step (resolutions prim base58 toMontgomery mediator))
      (.empty (.new now)) (history ++ [.call i task before ⟨.answer did (.ok doc), u⟩]) c) :
    task = did ∧ doc.id = did ∧ Authentic prim base58 toMontgomery mediator history did doc := by
  obtain ⟨c₀, hbefore, hstep⟩ := hrun.snoc_inv
  obtain ⟨rfl, hauthentic⟩ := permitted_step hbefore (wellServed_of_run hbefore).1 hstep
  have hdoc := hauthentic doc rfl
  refine ⟨rfl, ?_, hdoc⟩
  cases hdoc with
  | own hown heq => rw [heq, hown]
  | selfCertified _ h => exact h.id
  | fetched _ _ h => exact h.id

/-- The resolution of the example returns the document that was fetched. -/
theorem resolution_authentic_fetched :
    let history := .start 0 FetchingExample.there.id ::
      Pool.calling 0 FetchingExample.there.id [] (FetchingExample.calls.take 4)
    ∃ c, Transition.Run (Pool.Step (resolutions Transparent.packages bs58 id FetchingExample.here))
        (.empty (.new 0)) (history ++ [.call 0 FetchingExample.there.id
          (FetchingExample.calls.take 4) ⟨.answer FetchingExample.there.id
            (.ok FetchingExample.there), ()⟩]) c ∧
      Authentic Transparent.packages bs58 id FetchingExample.here history FetchingExample.there.id
        FetchingExample.there := by
  intro history
  obtain ⟨c₁, hbefore, -⟩ := @Transition.Run.snoc_inv _ _ _ _ _
    (.start 0 FetchingExample.there.id :: Pool.calling 0 FetchingExample.there.id
      [] FetchingExample.calls)
    (.stop 0 FetchingExample.there.id) FetchingExample.run
  exact ⟨c₁, hbefore, (resolution_authentic hbefore).2.2⟩

/-- The network is asked only for the documents of others' `did:web` DIDs that are being resolved,
and only with federation. -/
theorem network_asked {i : ℕ} {task url : String} {before : List (Call Lookups)}
    {answer : Except String Value}
    (hrun : Transition.Run (Pool.Step (resolutions prim base58 toMontgomery mediator))
      (.empty (.new now)) history c)
      (hasked : .call i task before ⟨.getJson url, answer⟩ ∈ history) :
      mediator.federation = true ∧ task ≠ mediator.identity.document.id ∧
        startsWith task "did:web:" ∧ documentUrl task = .ok url := by
  obtain ⟨earlier, later, rfl⟩ := List.append_of_mem hasked
  obtain ⟨c₁, c₂, hbefore, hstep, -⟩ := hrun.middle_inv
  exact permitted_step hbefore (wellServed_of_run hbefore).1 hstep

/-- The resolution of the example asks for the URL of its DID. -/
theorem network_asked_fetched :
    (∃ c, Transition.Run (Pool.Step (resolutions Transparent.packages bs58 id FetchingExample.here))
      (.empty (.new 0)) (.start 0 FetchingExample.there.id ::
        Pool.finishing 0 FetchingExample.there.id [] FetchingExample.calls) c) ∧
      documentUrl FetchingExample.there.id = .ok FetchingExample.url := by
  have hasked : .call 0 FetchingExample.there.id (FetchingExample.calls.take 2)
      ⟨.getJson FetchingExample.url, .ok FetchingExample.served⟩ ∈
        Pool.Label.start 0 FetchingExample.there.id ::
          Pool.finishing 0 FetchingExample.there.id [] FetchingExample.calls := by
    simp [FetchingExample.calls, fetching, Pool.finishing]
  exact ⟨⟨_, FetchingExample.run⟩, (network_asked FetchingExample.run hasked).2.2.2⟩

end Runs

/-! ## Freshness -/

/-- The steps of a pool of resolutions, with the states around them. -/
abbrev ResolvedSteps : Type :=
  List (Transition.Event (Pool.Config Lookups String Resolvers) (Pool.Label Lookups String))

/-- A document goes into the cache. -/
def Stores (did : String) (doc : DidDocument) (label : Pool.Label Lookups String) : Prop :=
  ∃ i task before, label = .call i task before ⟨.remember did doc, ()⟩

/-- The document is the last one that went into the cache for this DID; it did so then. -/
def LastStored (steps : ResolvedSteps) (did : String) (doc : DidDocument) (then_ : ℕ) : Prop :=
  ∃ earlier e later, steps = earlier ++ e :: later ∧ Stores did doc e.label ∧
    e.before.shared.now = then_ ∧
    ∀ e' ∈ later, ∀ doc', ¬ Stores did doc' e'.label

section Freshness

variable {now then_ : ℕ} {c : Pool.Config Lookups String Resolvers} {steps : ResolvedSteps}
  {e : Transition.Event (Pool.Config Lookups String Resolvers) (Pool.Label Lookups String)}

/-- The last document stored stays the last one while no other is stored. -/
theorem LastStored.snoc (h : LastStored steps did doc then_)
    (hnot : ∀ doc', ¬ Stores did doc' e.label) : LastStored (steps ++ [e]) did doc then_ := by
  obtain ⟨earlier, e₀, later, rfl, hstores, hthen, hlater⟩ := h
  refine ⟨earlier, e₀, later ++ [e], by simp, hstores, hthen,
    List.forall_mem_append.mpr ⟨hlater, ?_⟩⟩
  simpa using hnot

/-- Every document in the cache is the last one that went there for its DID. -/
theorem lastStored_of_run
    (hrun : Transition.Run (Transition.Observed
      (Pool.Step (resolutions prim base58 toMontgomery mediator))) (.empty (.new now)) steps c) :
    ∀ e ∈ c.shared.cache, LastStored steps e.did e.doc e.at_ := by
  induction hrun with
  | nil => exact fun e he => by simp [Pool.Config.empty, Resolvers.new] at he
  | @snoc steps c c' e hrun hstep ih =>
    obtain ⟨rfl, rfl, hstep⟩ := hstep
    -- only storing changes the cache
    have hother : e.after.shared.cache = e.before.shared.cache →
      (∀ did doc, ¬ Stores did doc e.label) →
        ∀ k ∈ e.after.shared.cache, LastStored (steps ++ [e]) k.did k.doc k.at_ := by
      intro hsame hnot k hk
      exact (ih k (hsame ▸ hk)).snoc fun doc => hnot _ doc
    obtain ⟨before, label, after⟩ := e
    simp only at hstep hother ih ⊢
    cases hstep with
    | start hthread hstart =>
      obtain rfl := hstart
      refine hother rfl ?_
      rintro did doc ⟨_, _, _, h⟩
      cases h
    | @call i task made op next r s hthread hanswers =>
      cases hanswers with
      | remember did doc =>
        intro k hk
        rcases List.mem_cons.mp hk with rfl | hk
        · exact ⟨steps, _, [], rfl, ⟨i, task, made, rfl⟩, rfl, by simp⟩
        · have hne : k.did ≠ did := by simpa using List.of_mem_filter hk
          have hmem := List.mem_of_mem_filter hk
          have hbefore : k ∈ before.shared.cache := by
            split at hmem
            · cases hmem
            · exact hmem
          refine (ih k hbefore).snoc ?_
          rintro doc' ⟨_, _, _, h⟩
          cases h
          exact hne rfl
      | _ =>
        refine hother rfl ?_
        rintro did doc ⟨_, _, _, h⟩
        cases h
    | stop hthread =>
      refine hother rfl ?_
      rintro did doc ⟨_, _, _, h⟩
      cases h
    | idle hidle =>
      obtain ⟨passed, rfl⟩ := hidle
      refine hother rfl ?_
      rintro did doc ⟨_, _, _, h⟩
      cases h

/-- What the cache has for a DID is the last document stored for it, less than five minutes ago. -/
theorem cached_fresh
    (hrun : Transition.Run (Transition.Observed
      (Pool.Step (resolutions prim base58 toMontgomery mediator))) (.empty (.new now)) steps c)
      (hcached : c.shared.cached did = some doc) :
      ∃ then_, LastStored steps did doc then_ ∧ c.shared.now < then_ + 300 * 10 ^ 9 := by
  obtain ⟨k, hk, rfl⟩ := Option.map_eq_some_iff.mp hcached
  obtain ⟨hfind, hfresh⟩ := Option.filter_eq_some_iff.mp hk
  obtain rfl : k.did = did := by simpa using List.find?_some hfind
  refine ⟨k.at_, lastStored_of_run hrun k (List.mem_of_find?_eq_some hfind), ?_⟩
  have hage : c.shared.now - k.at_ < 300 * 10 ^ 9 := of_decide_eq_true hfresh
  omega

/-- The document of the example is answered from the cache while it is fresh. -/
theorem cached_fresh_fetched : ∃ steps c then_,
    Transition.Run (Transition.Observed
        (Pool.Step (resolutions Transparent.packages bs58 id FetchingExample.here)))
        (.empty (.new 0)) steps c ∧ LastStored steps FetchingExample.there.id
          FetchingExample.there then_ ∧ c.shared.now < then_ + 300 * 10 ^ 9 := by
  obtain ⟨steps, -, hsteps⟩ := FetchingExample.run.observe
  have hcached : ((Resolvers.new 0).remember FetchingExample.there.id FetchingExample.there).cached
      FetchingExample.there.id = some FetchingExample.there := by decide +kernel
  obtain ⟨then_, hlast, hfresh⟩ := cached_fresh hsteps hcached
  exact ⟨steps, _, then_, hsteps, hlast, hfresh⟩

end Freshness

end Dispatch
