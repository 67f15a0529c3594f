import AlmenaMediator.Didcomm.Did.Reading
import AlmenaMediator.Didcomm.Transparent

/-!
# Reading a DID document again

`from_json` normalises: relative ids become absolute, embedded methods are listed, methods in other
formats are left out and the endpoint of a DIDComm service becomes a list. `DidDocument.Normal` says
what a document looks like after that, and a document in this form is read back from what `to_json`
writes.

## Main results

* `normal_of_fromJson`: what `from_json` returns is normal;
* `fromJson_toJson`: a normal document is read back;
* `fromJson_toJson_fromJson`: reading, writing and reading again is reading once.
-/

namespace Didcomm

variable {prim : Primitives} {base58 : Base58}

/-- A public key comes from bytes: a JWK, a multikey or a base58 text. -/
def PublicKey.Read (prim : Primitives) (key : PublicKey) : Prop :=
  ∃ curve bytes, PublicKey.fromBytes prim curve bytes = .ok key

/-- A key read from a JWK is one that the packages read. -/
theorem PublicKey.read_of_fromJwk {jwk : Jwk} {key : PublicKey}
    (h : PublicKey.fromJwk prim jwk = .ok key) : key.Read prim := by
  obtain ⟨curve, -, h⟩ := bind_eq_ok.mp h
  split_ifs at h
  · obtain ⟨x, -, h⟩ := bind_eq_ok.mp h
    exact ⟨curve, x, h⟩
  · obtain ⟨x, -, h⟩ := bind_eq_ok.mp h
    obtain ⟨y, -, h⟩ := bind_eq_ok.mp h
    obtain ⟨yBytes, -, h⟩ := bind_eq_ok.mp h
    split_ifs at h
    exact ⟨curve, _, h⟩

/-- A key read from a multikey is one that the packages read. -/
theorem PublicKey.read_of_multikey {text : String} {key : PublicKey}
    (h : Multikey.decode prim base58 text = .ok key) : key.Read prim := by
  obtain ⟨bytes, -, h⟩ := bind_eq_ok.mp h
  obtain ⟨⟨codec, rest⟩, -, h⟩ := bind_eq_ok.mp h
  obtain ⟨curve, -, h⟩ := bind_eq_ok.mp h
  exact ⟨curve, rest, h⟩

/-- The public half of a key is a key that can be read. -/
theorem Transparent.read_publicKey (key : SecretKey) : (key.publicKey packages).Read packages := by
  refine ⟨key.curve, publicBytes key, ?_⟩
  rw [PublicKey.fromBytes, show packages.decodePoint key.curve (publicBytes key) = _ from
    decodePoint_publicBytes key]
  rfl

/-- A key that was read is read back from its JWK. -/
theorem Transparent.fromJwk_toJwk {key : PublicKey} (h : key.Read packages) :
    PublicKey.fromJwk packages (key.toJwk packages) = .ok key := by
  obtain ⟨curve, bytes, h⟩ := h
  unfold PublicKey.fromBytes at h
  split at h
  · rename_i canonical hcanonical
    obtain ⟨secret, hsecret⟩ := exists_of_decodePoint hcanonical
    obtain rfl := Except.ok.inj h
    have hreads := PublicKey.fromJwk_toJwk lawful ⟨curve, secret⟩
    rwa [SecretKey.publicKey,
      show packages.publicBytes ⟨curve, secret⟩ = canonical from hsecret] at hreads
  · cases h

namespace DidDocument

/-- A document as `from_json` leaves it: all ids are absolute and no DIDComm service has a lone
endpoint. -/
structure Normal (prim : Primitives) (doc : DidDocument) : Prop where
  keys : ∀ m ∈ doc.verificationMethod, m.key.Read prim
  methods : ∀ m ∈ doc.verificationMethod, absolute doc.id m.id = m.id
  authentication : ∀ id ∈ doc.authentication, absolute doc.id id = id
  assertionMethod : ∀ id ∈ doc.assertionMethod, absolute doc.id id = id
  keyAgreement : ∀ id ∈ doc.keyAgreement, absolute doc.id id = id
  serviceIds : ∀ s ∈ doc.service, absolute doc.id s.id = s.id
  endpoints : ∀ s ∈ doc.service, s.kind = didcommServiceType → s.endpoint.isObject = false

variable {did : String}

/-! ## What is read is normal -/

/-- An absolute id is left alone. -/
theorem absolute_absolute (hdid : startsWith did "did:") (id : String) :
    absolute did (absolute did id) = absolute did id := by
  by_cases hrelative : startsWith id "#" = true
  · have hstart : startsWith (did ++ id) "#" = false := by
      simp only [startsWith, List.isPrefixOf_iff_prefix] at hdid
      obtain ⟨rest, hrest⟩ := hdid
      rw [startsWith, String.toList_append, ← hrest]
      rfl
    have hjoined : absolute did id = did ++ id := if_pos hrelative
    rw [hjoined]
    exact if_neg (by simp [hstart])
  · have hsame : absolute did id = id := if_neg hrelative
    rw [hsame, hsame]

/-- A method that was read. -/
structure MethodRead (prim : Primitives) (did : String) (m : VerificationMethod) : Prop where
  key : m.key.Read prim
  absolute : ∃ id, m.id = absolute did id

/-- A method that is read has an absolute id and a key that the packages read. -/
theorem methodRead_of_parseMethod {vm : Value} {m : VerificationMethod}
    (h : parseMethod prim base58 did vm = .ok (some m)) : MethodRead prim did m := by
  obtain ⟨id, -, h⟩ := bind_eq_ok.mp h
  obtain ⟨key, hkey, h⟩ := bind_eq_ok.mp h
  cases key with
  | none => nomatch h
  | some key =>
    obtain rfl := Option.some.inj (pure_eq_ok.mp h)
    refine ⟨?_, id, rfl⟩
    -- a JWK, a multikey, or the older base58 form
    unfold methodKey at hkey
    dsimp only at hkey
    split at hkey
    · obtain ⟨jwk, -, hkey⟩ := bind_eq_ok.mp hkey
      obtain ⟨key', hread, hkey⟩ := bind_eq_ok.mp hkey
      obtain rfl := Option.some.inj (pure_eq_ok.mp hkey)
      exact PublicKey.read_of_fromJwk hread
    · split at hkey
      · obtain ⟨key', hread, hkey⟩ := bind_eq_ok.mp hkey
        obtain rfl := Option.some.inj (pure_eq_ok.mp hkey)
        exact PublicKey.read_of_multikey hread
      · split at hkey
        · obtain ⟨raw, -, hkey⟩ := bind_eq_ok.mp hkey
          obtain ⟨key', hread, hkey⟩ := bind_eq_ok.mp hkey
          obtain rfl := Option.some.inj (pure_eq_ok.mp hkey)
          exact ⟨_, raw, hread⟩
        · nomatch hkey
      · nomatch hkey

/-- Methods that are read have absolute ids and keys that the packages read. -/
theorem methodRead_of_parseMethods {vms : List Value} {methods : List VerificationMethod}
    (h : parseMethods prim base58 did vms = .ok methods) :
    ∀ m ∈ methods, MethodRead prim did m := by
  induction vms generalizing methods with
  | nil =>
    obtain rfl := Except.ok.inj h
    exact fun m hm => absurd hm List.not_mem_nil
  | cons vm vms ih =>
    obtain ⟨method, hmethod, h⟩ := bind_eq_ok.mp h
    obtain ⟨rest, hrest, h⟩ := bind_eq_ok.mp h
    obtain rfl := pure_eq_ok.mp h
    intro m hm
    rcases List.mem_append.mp hm with hm | hm
    · obtain rfl := Option.mem_toList.mp hm
      exact methodRead_of_parseMethod hmethod
    · exact ih hrest m hm

/-- Reading a relationship keeps the methods read, and makes its ids absolute. -/
theorem read_of_parseRelationship {entries : List Value}
    {methods methods' : List VerificationMethod} {ids : List String}
    (h : parseRelationship prim base58 did entries methods = .ok (ids, methods'))
    (hmethods : ∀ m ∈ methods, MethodRead prim did m) :
    (∀ m ∈ methods', MethodRead prim did m) ∧ ∀ id ∈ ids, ∃ reference,
      id = absolute did reference := by
  -- an entry is a reference, or a method that is listed if its id is new
  induction entries generalizing methods ids with
  | nil =>
    obtain ⟨rfl, rfl⟩ := Prod.mk.inj (Except.ok.inj h)
    exact ⟨hmethods, fun id hid => absurd hid List.not_mem_nil⟩
  | cons entry entries ih =>
    match entry with
    | .string reference =>
      obtain ⟨⟨ids', _⟩, hrest, h⟩ := bind_eq_ok.mp h
      obtain ⟨rfl, rfl⟩ := Prod.mk.inj (pure_eq_ok.mp h)
      obtain ⟨hread, hids⟩ := ih hrest hmethods
      exact ⟨hread, List.forall_mem_cons.mpr ⟨⟨reference, rfl⟩, hids⟩⟩
    | .object members =>
      obtain ⟨method, hmethod, h⟩ := bind_eq_ok.mp h
      match method with
      | none => exact ih h hmethods
      | some m =>
        have hm := methodRead_of_parseMethod hmethod
        obtain ⟨⟨ids', _⟩, hrest, h⟩ := bind_eq_ok.mp h
        obtain ⟨rfl, rfl⟩ := Prod.mk.inj (pure_eq_ok.mp h)
        obtain ⟨hread, hids⟩ := ih hrest (by
          intro m' hm'
          split_ifs at hm'
          · exact hmethods m' hm'
          · rcases List.mem_append.mp hm' with hm' | hm'
            · exact hmethods m' hm'
            · obtain rfl := List.mem_singleton.mp hm'
              exact hm)
        exact ⟨hread, List.forall_mem_cons.mpr ⟨hm.absolute, hids⟩⟩
    | .null | .bool _ | .number _ | .array _ => nomatch h

/-- Services that are read have absolute ids, and the endpoint of a DIDComm service is no object. -/
theorem read_of_parseServices {i : ℕ} {values : List Value} {services : List Service}
    (h : parseServices did i values = .ok services) :
    ∀ s ∈ services, (∃ id, s.id = absolute did id) ∧
      (s.kind = didcommServiceType → s.endpoint.isObject = false) := by
  induction values generalizing i services with
  | nil =>
    obtain rfl := Except.ok.inj h
    exact fun s hs => absurd hs List.not_mem_nil
  | cons value values ih =>
    obtain ⟨service, hservice, h⟩ := bind_eq_ok.mp h
    obtain ⟨rest, hrest, h⟩ := bind_eq_ok.mp h
    obtain rfl := pure_eq_ok.mp h
    refine List.forall_mem_cons.mpr ⟨?_, ih hrest⟩
    obtain ⟨kind, -, hservice⟩ := bind_eq_ok.mp hservice
    obtain rfl := pure_eq_ok.mp hservice
    refine ⟨⟨_, rfl⟩, fun hkind => ?_⟩
    dsimp only at hkind ⊢
    -- a DIDComm endpoint that is an object is wrapped into an array
    split_ifs with hwrapped
    · rfl
    · exact Bool.eq_false_iff.mpr fun hobject => hwrapped ⟨hkind, hobject⟩

/-- What `from_json` returns for a document of a DID is normal. -/
theorem normal_of_fromJson {v : Value} {doc : DidDocument}
    (hid : ∀ id, (v.get "id").bind Value.asStr = some id → startsWith id "did:")
    (h : fromJson prim base58 v = .ok doc) : doc.Normal prim := by
  obtain ⟨obj, hobj, h⟩ := bind_eq_ok.mp h
  obtain ⟨did, hlookup, h⟩ := bind_eq_ok.mp h
  have hdid : startsWith did "did:" := by
    match v with
    | .object members =>
      obtain rfl := Option.some.inj (okOr_eq_ok.mp hobj)
      exact hid did (okOr_eq_ok.mp hlookup)
    | .null | .bool _ | .number _ | .string _ | .array _ => nomatch hobj
  -- the methods are read first, and each relationship may add to them
  obtain ⟨listed, hlisted, h⟩ := bind_eq_ok.mp h
  obtain ⟨⟨authentication, methods₁⟩, hauthentication, h⟩ := bind_eq_ok.mp h
  obtain ⟨⟨assertionMethod, methods₂⟩, hassertionMethod, h⟩ := bind_eq_ok.mp h
  obtain ⟨⟨keyAgreement, methods₃⟩, hkeyAgreement, h⟩ := bind_eq_ok.mp h
  obtain ⟨service, hservice, h⟩ := bind_eq_ok.mp h
  obtain rfl := pure_eq_ok.mp h
  have hread := methodRead_of_parseMethods hlisted
  obtain ⟨hread₁, hids₁⟩ := read_of_parseRelationship hauthentication hread
  obtain ⟨hread₂, hids₂⟩ := read_of_parseRelationship hassertionMethod hread₁
  obtain ⟨hread₃, hids₃⟩ := read_of_parseRelationship hkeyAgreement hread₂
  have hservices := read_of_parseServices hservice
  have hfixed : ∀ {id reference : String}, id = absolute did reference → absolute did id = id := by
    rintro id reference rfl
    exact absolute_absolute hdid reference
  exact
    { keys := fun m hm => (hread₃ m hm).key
      methods := fun m hm => hfixed (hread₃ m hm).absolute.choose_spec
      authentication := fun id hid => hfixed (hids₁ id hid).choose_spec
      assertionMethod := fun id hid => hfixed (hids₂ id hid).choose_spec
      keyAgreement := fun id hid => hfixed (hids₃ id hid).choose_spec
      serviceIds := fun s hs => hfixed (hservices s hs).1.choose_spec
      endpoints := fun s hs => (hservices s hs).2 }

/-! ## What is normal is read back -/

/-- A JWK is read back from its JSON. -/
theorem ofValue_jwkValue (jwk : Jwk) : Jwk.ofValue (jwkValue jwk) = .ok jwk := by
  obtain ⟨kty, crv, x, y, d, kid⟩ := jwk
  cases y <;> cases d <;> cases kid <;> rfl

/-- The JSON of a method. -/
def writtenMethod (prim : Primitives) (m : VerificationMethod) : Value :=
  .object [("id", .string m.id), ("type", .string "JsonWebKey2020"),
    ("controller", .string m.controller), ("publicKeyJwk", jwkValue (m.key.toJwk prim))]

/-- The JSON of a service. -/
def writtenService (s : Service) : Value :=
  .object [("id", .string s.id), ("type", .string s.kind), ("serviceEndpoint", s.endpoint)]

/-- Written methods are read back where their keys and their ids are. -/
theorem parseMethods_writtenMethod {methods : List VerificationMethod}
    (hkeys : ∀ m ∈ methods, PublicKey.fromJwk prim (m.key.toJwk prim) = .ok m.key)
    (hids : ∀ m ∈ methods, absolute did m.id = m.id) :
    parseMethods prim base58 did (methods.map (writtenMethod prim)) = .ok methods := by
  induction methods with
  | nil => rfl
  | cons m methods ih =>
    have hkey : methodKey prim base58 (writtenMethod prim m) = .ok (some m.key) :=
      bind_eq_ok.mpr ⟨_, ofJson_eq_ok.mpr (ofValue_jwkValue _),
        bind_eq_ok.mpr ⟨_, hkeys m List.mem_cons_self, rfl⟩⟩
    have hfirst : parseMethod prim base58 did (writtenMethod prim m) = .ok (some m) := by
      refine bind_eq_ok.mpr ⟨m.id, rfl, bind_eq_ok.mpr ⟨_, hkey, ?_⟩⟩
      rw [hids m List.mem_cons_self]
      rfl
    have hrest := ih (fun m' hm' => hkeys m' (List.mem_cons_of_mem m hm'))
      fun m' hm' => hids m' (List.mem_cons_of_mem m hm')
    exact bind_eq_ok.mpr ⟨_, hfirst, bind_eq_ok.mpr ⟨_, hrest, rfl⟩⟩

/-- Written services are read back where their ids are and no DIDComm endpoint is an object. -/
theorem parseServices_writtenService {services : List Service}
    (hids : ∀ s ∈ services, absolute did s.id = s.id)
    (hendpoints : ∀ s ∈ services, s.kind = didcommServiceType → s.endpoint.isObject = false)
    (i : ℕ) : parseServices did i (services.map writtenService) = .ok services := by
  induction services generalizing i with
  | nil => rfl
  | cons s services ih =>
    have hfirst : parseService did i (writtenService s) = .ok s := by
      refine bind_eq_ok.mpr ⟨s.kind, rfl, ?_⟩
      -- a normal service has no endpoint that would be wrapped
      have hendpoint : ¬ (s.kind = didcommServiceType ∧ s.endpoint.isObject) := by
        rintro ⟨hkind, hobject⟩
        simp [hendpoints s List.mem_cons_self hkind] at hobject
      change pure (Service.mk (absolute did s.id) s.kind
        (if s.kind = didcommServiceType ∧ s.endpoint.isObject then .array
          [s.endpoint] else s.endpoint)) = _
      rw [if_neg hendpoint, hids s List.mem_cons_self]
      rfl
    have hrest := ih (fun s' hs' => hids s' (List.mem_cons_of_mem s hs'))
      (fun s' hs' => hendpoints s' (List.mem_cons_of_mem s hs')) (i + 1)
    exact bind_eq_ok.mpr ⟨_, hfirst, bind_eq_ok.mpr ⟨_, hrest, rfl⟩⟩

/-- A list that is left out when empty is read back as the list. -/
theorem items_lookup_unlessEmpty (name : String) (values : List Value) :
    items (Value.lookup name (unlessEmpty name values)) = values := by
  by_cases hempty : values = []
  · rw [unlessEmpty, if_pos hempty, hempty]
    rfl
  · rw [unlessEmpty, if_neg hempty, Value.lookup_cons, if_pos rfl]
    rfl

/-- A list that is left out when empty is looked up under no other name. -/
theorem lookup_unlessEmpty_of_ne {name other : String} (hne : other ≠ name) (values : List Value) :
    Value.lookup name (unlessEmpty other values) = none := by
  by_cases hempty : values = []
  · rw [unlessEmpty, if_pos hempty]
    rfl
  · rw [unlessEmpty, if_neg hempty, Value.lookup_cons, if_neg hne]
    rfl

/-- The members of a document's JSON. -/
def writtenMembers (prim : Primitives) (doc : DidDocument) : List (String × Value) :=
  [("@context", strings ["https://www.w3.org/ns/did/v1",
    "https://w3id.org/security/suites/jws-2020/v1"]), ("id", .string doc.id)] ++
    unlessEmpty "alsoKnownAs" (doc.alsoKnownAs.map .string) ++
    [("verificationMethod", .array (doc.verificationMethod.map (writtenMethod prim)))] ++
    unlessEmpty "authentication" (doc.authentication.map .string) ++
    unlessEmpty "assertionMethod" (doc.assertionMethod.map .string) ++
    unlessEmpty "keyAgreement" (doc.keyAgreement.map .string) ++
    unlessEmpty "service" (doc.service.map writtenService)

/-- A document is written as the object of its members. -/
theorem toJson_eq (doc : DidDocument) : doc.toJson prim = .object (writtenMembers prim doc) := rfl

/-- What is found in a document's JSON under the names that `from_json` asks for. -/
structure Found (prim : Primitives) (doc : DidDocument)
    (members : List (String × Value)) : Prop where
  id : (Value.lookup "id" members).bind Value.asStr = some doc.id
  alsoKnownAs : items (Value.lookup "alsoKnownAs" members) = doc.alsoKnownAs.map .string
  verificationMethod : items (Value.lookup "verificationMethod" members) =
    doc.verificationMethod.map (writtenMethod prim)
  authentication : items (Value.lookup "authentication" members) = doc.authentication.map .string
  assertionMethod : items (Value.lookup "assertionMethod" members) = doc.assertionMethod.map .string
  keyAgreement : items (Value.lookup "keyAgreement" members) = doc.keyAgreement.map .string
  service : items (Value.lookup "service" members) = doc.service.map writtenService

/-- Every member of a written document is found under its name. -/
theorem found_writtenMembers (doc : DidDocument) : Found prim doc (writtenMembers prim doc) := by
  constructor <;>
    simp [writtenMembers, Value.lookup_append, Value.lookup_cons, lookup_unlessEmpty_of_ne,
      items_lookup_unlessEmpty, Value.asStr]
  all_goals rfl

/-- A normal document is read back from its JSON. -/
theorem fromJson_toJson (hrereads : ∀ key : PublicKey, key.Read prim →
      PublicKey.fromJwk prim (key.toJwk prim) = .ok key)
    {doc : DidDocument} (hnormal : doc.Normal prim) :
    fromJson prim base58 (doc.toJson prim) = .ok doc := by
  have hfound := @found_writtenMembers prim doc
  have hmethods := @parseMethods_writtenMethod prim base58 doc.id doc.verificationMethod
    (fun m hm => hrereads m.key (hnormal.keys m hm)) hnormal.methods
  have hservices := parseServices_writtenService hnormal.serviceIds hnormal.endpoints 0
  -- a written relationship is references only, which are absolute already
  have hreferences : ∀ ids : List String, (∀ id ∈ ids, absolute doc.id id = id) →
      parseRelationship prim base58 doc.id (ids.map Value.string) doc.verificationMethod =
        .ok (ids, doc.verificationMethod) := by
    intro ids hids
    rw [parseRelationship_strings, List.map_congr_left hids, List.map_id']
  have hknown : stringList (Value.lookup "alsoKnownAs" (writtenMembers prim doc)) =
    doc.alsoKnownAs := by
    rw [stringList, hfound.alsoKnownAs, List.filterMap_map]
    exact List.filterMap_some
  rw [toJson_eq]
  refine bind_eq_ok.mpr ⟨writtenMembers prim doc, rfl, ?_⟩
  refine bind_eq_ok.mpr ⟨doc.id, okOr_eq_ok.mpr hfound.id, ?_⟩
  refine bind_eq_ok.mpr ⟨_, hfound.verificationMethod ▸ hmethods, ?_⟩
  refine bind_eq_ok.mpr ⟨_, hfound.authentication ▸ hreferences _ hnormal.authentication, ?_⟩
  refine bind_eq_ok.mpr ⟨_, hfound.assertionMethod ▸ hreferences _ hnormal.assertionMethod, ?_⟩
  refine bind_eq_ok.mpr ⟨_, hfound.keyAgreement ▸ hreferences _ hnormal.keyAgreement, ?_⟩
  refine bind_eq_ok.mpr ⟨_, hfound.service ▸ hservices, ?_⟩
  rw [pure_eq_ok, hknown]

/-- A DID's document is read back from what it is written as, whatever it was first read from. The
key of a document is read back from its JWK. -/
theorem fromJson_toJson_fromJson (hrereads : ∀ key : PublicKey, key.Read prim →
      PublicKey.fromJwk prim (key.toJwk prim) = .ok key)
    {v : Value} {doc : DidDocument}
    (hid : ∀ id, (v.get "id").bind Value.asStr = some id → startsWith id "did:")
    (h : fromJson prim base58 v = .ok doc) : fromJson prim base58 (doc.toJson prim) = .ok doc :=
  fromJson_toJson hrereads (normal_of_fromJson hid h)

/-- A document with an embedded key of a relative id, a reference to no method and a lone
endpoint. -/
def mixed : Value :=
  let key := Value.object [("id", .string "#k"), ("publicKeyJwk", .object
    [("kty", .string "OKP"), ("crv", .string "X25519"),
      ("x", .string (b64Encode (List.replicate 32 9)))])]
  .object [("id", .string "did:example:a"), ("keyAgreement", .array [key, .string "#gone"]),
    ("service", .array [.object [("type", .string didcommServiceType),
      ("serviceEndpoint", .object [])]])]

/-- A document of mixed methods is read, written and read back as the same document. -/
theorem fromJson_toJson_fromJson_mixed : ∃ doc,
    fromJson Transparent.packages bs58 mixed = .ok doc ∧
      fromJson Transparent.packages bs58 (doc.toJson Transparent.packages) = .ok doc := by
  have hid : ∀ id, (mixed.get "id").bind Value.asStr = some id → startsWith id "did:" := by
    intro id h
    obtain rfl := Option.some.inj h
    decide
  have hread : ∃ doc, fromJson Transparent.packages bs58 mixed = .ok doc := ⟨_, rfl⟩
  obtain ⟨doc, hread⟩ := hread
  exact ⟨doc, hread, fromJson_toJson_fromJson (fun _ => Transparent.fromJwk_toJwk) hid hread⟩

end DidDocument

end Didcomm
