import AlmenaMediator.Didcomm.Did.Resolver
import AlmenaMediator.Didcomm.Did.Web
import AlmenaMediator.Library.Pool

/-!
# Resolvers that go to the network

`WebResolver` of `transport.rs`, which fetches `did:web` documents and caches them for a few
minutes, and the chain of resolvers of `did/resolver.rs`. A resolution is a program over what it
shares with the others: the local resolver, the cache and the network. Locks are never poisoned, and
what is done under one is one call. The clock counts nanoseconds.
-/

namespace Transport

open Didcomm

/-- What a resolution calls. -/
inductive Lookup
  /-- `LocalResolver::resolve`. -/
  | inLocal (did : String)
  /-- `WebResolver::cached`. -/
  | cached (did : String)
  /-- `Transport::get_json`. -/
  | getJson (url : String)
  /-- A document goes into the cache. -/
  | remember (did : String) (doc : DidDocument)
  /-- The resolution returns. -/
  | answer (did : String) (result : Result DidDocument)

namespace Lookup

/-- What a lookup is answered with; a failed request with its error's text. -/
@[reducible] def Reply : Lookup → Type
  | inLocal _ => Result DidDocument
  | cached _ => Option DidDocument
  | getJson _ => Except String Value
  | remember .. | answer .. => Unit

end Lookup

abbrev Lookups : Interface where
  Op := Lookup
  Reply := Lookup.Reply

/-- `DidResolver::resolve`. -/
abbrev DidResolver : Type := String → Program Lookups (Result DidDocument)

def ask (lookup : Lookup) : Program Lookups lookup.Reply := Program.request (I := Lookups) lookup

/-! ## The resolvers -/

/-- `StaticResolver`: the last document of a DID counts. -/
def staticResolver (docs : List DidDocument) : DidResolver := fun did =>
  pure (okOr (.didNotFound did) (docs.reverse.find? fun doc => doc.id == did))

def localResolver : DidResolver := fun did => ask (.inLocal did)

/-- `WebResolver`. -/
def webResolver (prim : Primitives) (base58 : Base58) : DidResolver := fun did =>
  if startsWith did "did:web:" then do
    match ← ask (.cached did) with
    | some doc => pure (.ok doc)
    | none =>
      match documentUrl did with
      | .error error => pure (.error error)
      | .ok url =>
        match ← ask (.getJson url) with
        | .error text => pure (.error (.resolver (did ++ ": " ++ text)))
        | .ok json =>
          match DidDocument.fromJson prim base58 json with
          | .error error => pure (.error error)
          | .ok doc =>
            if doc.id ≠ did then pure (.error
              (.resolver (url ++ " holds the document of " ++ doc.id)))
            else do
              ask (.remember did doc)
              pure (.ok doc)
  else pure (.error (.didNotFound did))

/-- `ChainResolver`: the first answer other than `DidNotFound` wins. -/
def chainResolver : List DidResolver → DidResolver
  | [], did => pure (.error (.didNotFound did))
  | resolver :: rest, did => do
    match ← resolver did with
    | .error (.didNotFound _) => chainResolver rest did
    | other => pure other

/-! ## What they share -/

/-- A cached document. -/
structure CachedDocument where
  did : String
  doc : DidDocument
  at_ : ℕ

/-- What the resolvers of a mediator keep, and the monotonic clock. -/
structure Resolvers where
  localResolver : LocalResolver
  cache : List CachedDocument
  now : ℕ

namespace Resolvers

/-- How long a document stays in the cache. -/
def ttl : ℕ := 300 * 10 ^ 9

def capacity : ℕ := 1000

/-- The resolvers as `Mediator::new` makes them. -/
def new (now : ℕ) : Resolvers := ⟨LocalResolver.new, [], now⟩

/-- `WebResolver::cached`. -/
def cached (did : String) (known : Resolvers) : Option DidDocument :=
  ((known.cache.find? fun e => e.did == did).filter
    fun e => known.now - e.at_ < ttl).map CachedDocument.doc

/-- The document goes into the cache, which is emptied first when it is full. -/
def remember (did : String) (doc : DidDocument) (known : Resolvers) : Resolvers :=
  let cache := if capacity ≤ known.cache.length then [] else known.cache
  { known with cache := ⟨did, doc, known.now⟩ :: cache.filter fun e => e.did != did }

/-- What lookups are answered. The network may answer anything. -/
inductive Answers (prim : Primitives) (base58 : Base58) (toMontgomery : Bytes → Bytes) :
    Resolvers → Call Lookups → Resolvers → Prop
  | inLocal (known : Resolvers) (did : String) :
      Answers prim base58 toMontgomery known
        ⟨.inLocal did, (LocalResolver.resolve prim base58 toMontgomery did known.localResolver).1⟩
        { known with
          localResolver := (LocalResolver.resolve prim base58 toMontgomery did
            known.localResolver).2 }
  | cached (known : Resolvers) (did : String) :
      Answers prim base58 toMontgomery known ⟨.cached did, known.cached did⟩ known
  | getJson (known : Resolvers) (url : String) (answer : Except String Value) :
      Answers prim base58 toMontgomery known ⟨.getJson url, answer⟩ known
  | remember (known : Resolvers) (did : String) (doc : DidDocument) :
      Answers prim base58 toMontgomery known ⟨.remember did doc, ()⟩ (known.remember did doc)
  | answer (known : Resolvers) (did : String) (result : Result DidDocument) :
      Answers prim base58 toMontgomery known ⟨.answer did result, ()⟩ known

end Resolvers

/-! ## Rules -/

section Rules

variable {rely : (lookup : Lookup) → lookup.Reply → Prop} {guar : Lookup → Prop} {prim : Primitives}
  {base58 : Base58} {did : String} {post : Result DidDocument → Prop}

/-- One question to the network or the clock ensures what holds of each reply to be relied on. -/
@[simp] theorem ensures_ask {lookup : Lookup} {post : lookup.Reply → Prop} :
    (ask lookup).Ensures rely guar post ↔ guar lookup ∧ ∀ r, rely lookup r → post r := Iff.rfl

/-- A chain is as good as its first resolver, where that finds the DID, and as the rest of it where
not. -/
theorem ensures_chainResolver_cons {resolver : DidResolver} {rest : List DidResolver}
    (hfirst : (resolver did).Ensures rely guar fun result =>
      (∀ other, result ≠ .error (.didNotFound other)) → post result)
    (hrest : (chainResolver rest did).Ensures rely guar post) :
    (chainResolver (resolver :: rest) did).Ensures rely guar post := by
  rw [chainResolver, Program.ensures_bind]
  refine hfirst.imp fun result hresult => ?_
  split
  · exact hrest
  · rename_i hfound
    exact hresult hfound

/-- A chain needs nothing after a resolver that has the document. -/
theorem ensures_chainResolver_ok {resolver : DidResolver} {rest : List DidResolver}
    {doc : DidDocument} (h : (resolver did).Ensures rely guar fun result => result = .ok doc) :
    (chainResolver (resolver :: rest) did).Ensures rely guar fun result => result = .ok doc := by
  rw [chainResolver, Program.ensures_bind]
  refine h.imp fun result hresult => ?_
  subst hresult
  exact rfl

/-- What a `did:web` resolves to was in the cache, or is fetched from its URL, which is all that is
asked of the network. -/
theorem ensures_webResolver
    (hcached : startsWith did "did:web:" → guar (.cached did) ∧ ∀ doc,
      rely (.cached did) (some doc) → post (.ok doc))
    (hfetched : ∀ url, startsWith did "did:web:" → documentUrl did = .ok url → guar (.getJson url) ∧
      ∀ json doc, rely (.getJson url) (.ok json) → DidDocument.fromJson prim base58 json = .ok doc →
        doc.id = did → guar (.remember did doc) ∧ post (.ok doc))
    (herror : ∀ error, post (.error error)) :
    (webResolver prim base58 did).Ensures rely guar post := by
  unfold webResolver
  split_ifs with hweb
  swap
  · exact herror _
  rw [Program.ensures_bind, ensures_ask]
  -- a cached document is answered, otherwise it is fetched and must name the DID
  refine ⟨(hcached hweb).1, fun found hfound => ?_⟩
  split
  · exact (hcached hweb).2 _ hfound
  split
  · exact herror _
  · rename_i url hurl
    rw [Program.ensures_bind, ensures_ask]
    refine ⟨(hfetched url hweb hurl).1, fun json hjson => ?_⟩
    split
    · exact herror _
    split
    · exact herror _
    · rename_i doc hdoc
      split_ifs with hid
      · exact herror _
      · obtain ⟨hremember, hpost⟩ := (hfetched url hweb hurl).2 _ doc hjson hdoc (not_not.mp hid)
        rw [Program.ensures_bind, ensures_ask]
        exact ⟨hremember, fun _ _ => hpost⟩

/-- A `did:web` resolves to the document that its URL has, when the cache has no other one. -/
theorem ensures_webResolver_ok {url : String} {json : Value} {doc : DidDocument}
    (hweb : startsWith did "did:web:") (hurl : documentUrl did = .ok url)
    (hdoc : DidDocument.fromJson prim base58 json = .ok doc) (hid : doc.id = did)
    (hguar : guar (.cached did) ∧ guar (.getJson url) ∧ guar (.remember did doc))
    (hcached : ∀ found, rely (.cached did) (some found) → found = doc)
    (hfetched : ∀ answer, rely (.getJson url) answer → answer = .ok json) :
    (webResolver prim base58 did).Ensures rely guar fun result => result = .ok doc := by
  rw [webResolver, if_pos hweb, Program.ensures_bind, ensures_ask]
  refine ⟨hguar.1, fun found hfound => ?_⟩
  cases found with
  | some found => exact congrArg Except.ok (hcached found hfound)
  -- the document is fetched, names the DID and is remembered
  | none =>
    simp only [hurl]
    rw [Program.ensures_bind, ensures_ask]
    refine ⟨hguar.2.1, fun answer hanswer => ?_⟩
    obtain rfl := hfetched answer hanswer
    simp only [hdoc, hid, ne_eq, not_true_eq_false, ↓reduceIte]
    rw [Program.ensures_bind, ensures_ask]
    exact ⟨hguar.2.2, fun _ _ => rfl⟩

end Rules

end Transport
