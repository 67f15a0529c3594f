import AlmenaMediator.Didcomm.Did.Key
import AlmenaMediator.Didcomm.Did.Reading
import AlmenaMediator.Library.Splitting

/-!
# `did:peer` numalgo 4

`did/peer.rs`: a DID whose long form carries its whole document, encoded, behind a hash of the
encoding. The short form is the hash alone.

## Main results

* `resolvePeer4_eq_ok`: only a long form with the hash of what it carries is resolved, to what it
  carries;
* `verdict_fromJson_insert`: whether a document is read does not depend on the form of its DID;
* `encodes_peer4`: the DID built for a document carries that document.
-/

namespace Didcomm

/-! ## Writing -/

variable (prim : Primitives) (base58 : Base58)

/-- Multicodec code for JSON. -/
def jsonCodec : ℕ := 0x0200

def peer4Hash (encodedDocument : String) : String :=
  Multikey.encodeBase58btc base58 (0x12 :: 0x20 :: prim.sha256 (utf8 encodedDocument))

/-- Builds the long-form `did:peer:4` for an input document (a DID document without `id`, using only
relative references). -/
def peer4 (inputDocument : Value) : Result String :=
  if (inputDocument.get "id").isSome then
    .error (.malformed "did:peer:4 input document must not have an id")
  else
    let bytes := Multikey.encodeVarint jsonCodec ++ prim.value.toVec inputDocument
    let encoded := Multikey.encodeBase58btc base58 bytes
    .ok ("did:peer:4" ++ peer4Hash prim base58 encoded ++ ":" ++ encoded)

/-- The short form of a long-form `did:peer:4`. -/
def peer4Short (long : String) : Result String :=
  okOr (.malformed "not a long-form did:peer:4")
    (((Splitting.rsplitOnce ':' long.toList).map fun (short, _) => String.ofList short).filter
      fun short => startsWith short "did:peer:4z")

/-! ## Reading -/

/-- Adds the other form of the DID to a document's aliases. -/
def addAlias (otherForm : String) (obj : List (String × Value)) : List (String × Value) :=
  match Value.lookup "alsoKnownAs" obj with
  | none => Value.insert "alsoKnownAs" (.array [.string otherForm]) obj
  | some (.array list) => Value.insert "alsoKnownAs" (.array (list ++ [.string otherForm])) obj
  | some _ => obj

/-- Resolves a long-form `did:peer:4` as `asDid` (the long form itself, or its short form when
resolving the short one). -/
def resolvePeer4 (long asDid : String) : Result DidDocument := do
  let short ← peer4Short long
  let (hash, encoded) ← okOr (.malformed "did:peer:4")
    ((stripPrefix long "did:peer:4").bind fun rest => Splitting.splitOnce ':' rest.toList)
  if peer4Hash prim base58 (String.ofList encoded) ≠ String.ofList hash then
    .error (.malformed "did:peer:4 hash does not match its document")
  else do
    let bytes ← Multikey.decodeBase58btc base58 (String.ofList encoded)
    let (codec, json) ← Multikey.decodeVarint bytes
    if codec ≠ jsonCodec then .error (.malformed "did:peer:4 document is not JSON")
    else do
      let doc ← ofJson (prim.value.fromSlice json)
      let obj ← okOr (.malformed "did:peer:4 document is not an object") doc.asObject
      let obj := Value.insert "id" (.string asDid) obj
      let obj := addAlias (if asDid = long then short else long) obj
      DidDocument.fromJson prim base58 (.object obj)

/-! ## What is resolved -/

/-- The short form of the DID of an encoded document. -/
def shortOf (encoded : String) : String := "did:peer:4" ++ peer4Hash prim base58 encoded

/-- The long form of the DID of an encoded document. -/
def longOf (encoded : String) : String := shortOf prim base58 encoded ++ ":" ++ encoded

/-- An encoding is of a JSON object. -/
def Encodes (encoded : String) (obj : List (String × Value)) : Prop :=
  ∃ bytes json, Multikey.decodeBase58btc base58 encoded = .ok bytes ∧
    Multikey.decodeVarint bytes = .ok (jsonCodec, json) ∧
    prim.value.fromSlice json = .ok (.object obj)

/-- A document under a DID, with its other form as an alias. -/
def underDid (asDid otherForm : String) (obj : List (String × Value)) : Value :=
  .object (addAlias otherForm (Value.insert "id" (.string asDid) obj))

variable {prim} {base58}

/-- A long form is a short form, a colon and an encoded document that has no colon. -/
theorem peer4Short_eq_ok {long short : String} : peer4Short long = .ok short ↔
    startsWith short "did:peer:4z" ∧ ∃ encoded : String, long = short ++ ":" ++ encoded ∧
      ':' ∉ encoded.toList := by
  rw [peer4Short, okOr_eq_ok, Option.filter_eq_some_iff, Option.map_eq_some_iff, and_comm]
  refine and_congr_right fun _ => ⟨?_, ?_⟩
  · rintro ⟨⟨a, b⟩, hsplit, rfl⟩
    obtain ⟨hlong, hnot⟩ := Splitting.rsplitOnce_eq_some.mp hsplit
    refine ⟨String.ofList b, ?_, by simpa using hnot⟩
    rw [← String.toList_inj, hlong]
    simp
  · rintro ⟨encoded, rfl, hnot⟩
    exact ⟨(short.toList, encoded.toList), Splitting.rsplitOnce_eq_some.mpr ⟨by simp, hnot⟩,
      by simp⟩

/-- A long form has one short form. -/
theorem short_unique {short short' encoded encoded' : String}
    (h : short ++ ":" ++ encoded = short' ++ ":" ++ encoded') (hnot : ':' ∉ encoded.toList)
    (hnot' : ':' ∉ encoded'.toList) : short = short' ∧ encoded = encoded' := by
  have hsplit : Splitting.rsplitOnce ':' (short ++ ":" ++ encoded).toList =
    some (short.toList, encoded.toList) :=
    Splitting.rsplitOnce_eq_some.mpr ⟨by simp, hnot⟩
  have hsplit' : Splitting.rsplitOnce ':' (short ++ ":" ++ encoded).toList =
    some (short'.toList, encoded'.toList) :=
    Splitting.rsplitOnce_eq_some.mpr ⟨by simp [h], hnot'⟩
  rw [hsplit, Option.some_inj, Prod.mk.injEq] at hsplit'
  exact ⟨String.toList_inj.mp hsplit'.1, String.toList_inj.mp hsplit'.2⟩

/-- A text of letters and digits has no colon. -/
theorem colon_notMem_of_isAlphanum {text : String} (h : ∀ c ∈ text.toList, c.isAlphanum) :
    ':' ∉ text.toList := fun hmem => absurd (h _ hmem) (by decide)

/-- An encoded document has no colon. -/
theorem Encodes.colon_notMem [base58.Strict] {encoded : String} {obj : List (String × Value)}
    (h : Encodes prim base58 encoded obj) : ':' ∉ encoded.toList := by
  obtain ⟨bytes, json, hbytes, -⟩ := h
  exact colon_notMem_of_isAlphanum (Multikey.isAlphanum_of_decodeBase58btc hbytes)

/-- The hash of a did:peer:4 is the multihash of the SHA-256 of the encoded document. -/
theorem decode_peer4Hash [base58.Strict]
    (encoded : String) : Multikey.decodeBase58btc base58 (peer4Hash prim base58 encoded) =
    .ok (0x12 :: 0x20 :: prim.sha256 (utf8 encoded)) :=
  Multikey.decodeBase58btc_encodeBase58btc Base58.Strict.toLawful.decode_encode _

/-- The hash of a did:peer:4 has no colon. -/
theorem colon_notMem_peer4Hash [base58.Strict]
    (encoded : String) : ':' ∉ (peer4Hash prim base58 encoded).toList :=
  colon_notMem_of_isAlphanum (Multikey.isAlphanum_of_decodeBase58btc (decode_peer4Hash encoded))

/-- What a long form carries is what follows the first colon after its hash. -/
theorem encoded_eq_of_longOf [base58.Strict] {encoded hash rest : String}
    (hhash : ':' ∉ hash.toList)
    (h : longOf prim base58 encoded = "did:peer:4" ++ hash ++ ":" ++ rest) : encoded = rest := by
  rw [longOf, shortOf, ← String.toList_inj] at h
  simp only [String.toList_append, List.append_assoc, List.append_cancel_left_eq] at h
  have hsplit : Splitting.splitOnce ':' ((peer4Hash prim base58 encoded).toList ++
    ":".toList ++ encoded.toList) =
      some ((peer4Hash prim base58 encoded).toList, encoded.toList) :=
    Splitting.splitOnce_eq_some.mpr ⟨by simp, colon_notMem_peer4Hash encoded⟩
  have hsplit' : Splitting.splitOnce ':' ((peer4Hash prim base58 encoded).toList ++
    ":".toList ++ encoded.toList) =
      some (hash.toList, rest.toList) :=
    Splitting.splitOnce_eq_some.mpr ⟨by simpa using h, hhash⟩
  rw [hsplit, Option.some_inj, Prod.mk.injEq] at hsplit'
  exact String.toList_inj.mp hsplit'.2

/-- The short form of a long form with an encoding that base58 can have. -/
theorem peer4Short_longOf {encoded : String} (hnot : ':' ∉ encoded.toList) :
    peer4Short (longOf prim base58 encoded) = .ok (shortOf prim base58 encoded) := by
  refine peer4Short_eq_ok.mpr ⟨?_, encoded, rfl, hnot⟩
  simp [startsWith, shortOf, peer4Hash, Multikey.encodeBase58btc]

/-- The long form of an encoded object resolves as that object under the DID asked for. -/
theorem resolvePeer4_longOf [base58.Strict] {encoded asDid : String} {obj : List (String × Value)}
    (h : Encodes prim base58 encoded obj) :
    resolvePeer4 prim base58 (longOf prim base58 encoded) asDid = DidDocument.fromJson prim base58
      (underDid asDid (if asDid = longOf prim base58 encoded then shortOf prim base58 encoded
        else longOf prim base58 encoded) obj) := by
  have hnot := h.colon_notMem
  obtain ⟨bytes, json, hbytes, hcodec, hvalue⟩ := h
  have hstrip : stripPrefix (longOf prim base58 encoded) "did:peer:4" =
      some (peer4Hash prim base58 encoded ++ ":" ++ encoded) :=
    stripPrefix_eq_some.mpr (by simp [longOf, shortOf, String.append_assoc])
  -- the hash has no colon, so the split is where the document begins
  have hsplit : Splitting.splitOnce ':' (peer4Hash prim base58 encoded ++ ":" ++ encoded).toList =
      some ((peer4Hash prim base58 encoded).toList, encoded.toList) :=
    Splitting.splitOnce_eq_some.mpr ⟨by simp, colon_notMem_peer4Hash encoded⟩
  rw [resolvePeer4, peer4Short_longOf hnot, ok_bind, hstrip,
    Option.bind_some, hsplit, okOr_some_bind]
  simp only [String.ofList_toList, ne_eq, not_true_eq_false, ↓reduceIte, hbytes,
    ok_bind, hcodec, hvalue, ofJson, Value.asObject, okOr_some_bind]
  rfl

/-- What resolves is the long form of an encoded object, under the hash of the encoding; the
document is that object under the DID asked for. -/
theorem resolvePeer4_eq_ok [base58.Strict] {long asDid : String} {doc : DidDocument} :
    resolvePeer4 prim base58 long asDid = .ok doc ↔
      ∃ encoded obj, long = longOf prim base58 encoded ∧ Encodes prim base58 encoded obj ∧
        DidDocument.fromJson prim base58
          (underDid asDid (if asDid = long then shortOf prim base58 encoded else long) obj) =
            .ok doc := by
  constructor
  · intro h
    obtain ⟨short, hshort, h⟩ := bind_eq_ok.mp h
    obtain ⟨⟨hash, encoded⟩, hsplit, h⟩ := bind_eq_ok.mp h
    obtain ⟨hhash, h⟩ := guard_eq_ok.mp h
    obtain ⟨bytes, hbytes, h⟩ := bind_eq_ok.mp h
    obtain ⟨⟨codec, json⟩, hcodec, h⟩ := bind_eq_ok.mp h
    obtain ⟨hjson, h⟩ := guard_eq_ok.mp h
    obtain ⟨value, hvalue, h⟩ := bind_eq_ok.mp h
    obtain ⟨obj, hobj, h⟩ := bind_eq_ok.mp h
    obtain ⟨rest, hstrip, hrest⟩ := Option.bind_eq_some_iff.mp (okOr_eq_ok.mp hsplit)
    obtain rfl := stripPrefix_eq_some.mp hstrip
    obtain ⟨hrest, -⟩ := Splitting.splitOnce_eq_some.mp hrest
    rw [not_not] at hhash hjson
    subst hjson
    obtain rfl : value = .object obj := by
      cases value <;> simp [Value.asObject] at hobj
      rw [hobj]
    -- the text after the first colon has no other one
    have hencodes : Encodes prim base58 (String.ofList encoded) obj :=
      ⟨bytes, json, hbytes, hcodec, ofJson_eq_ok.mp hvalue⟩
    have hlong : "did:peer:4" ++ rest = longOf prim base58 (String.ofList encoded) := by
      rw [longOf, shortOf, hhash, ← String.toList_inj]
      simp [show rest.toList = _ from hrest]
    obtain ⟨-, encoded', hsame, hnot⟩ := peer4Short_eq_ok.mp hshort
    obtain ⟨rfl, -⟩ := short_unique (hsame.symm.trans hlong) hnot hencodes.colon_notMem
    exact ⟨String.ofList encoded, obj, hlong, hencodes, h⟩
  · rintro ⟨encoded, obj, rfl, hencodes, h⟩
    rwa [resolvePeer4_longOf hencodes]

/-! ## Under another DID

What a document is read as depends on its DID, but not whether it is read, nor the error if it is
not. -/

/-- Whether something was read, or the error. -/
def verdict {α : Type} (r : Result α) : Result Unit := r.map fun _ => ()

/-- Whether a composed reading succeeds is settled by whether its parts do. -/
theorem verdict_bind {α α' β β' : Type} {x : Result α} {x' : Result α'} {f : α → Result β}
    {f' : α' → Result β'} (hx : verdict x = verdict x')
    (hf : ∀ a a', x = .ok a → x' = .ok a' → verdict (f a) = verdict (f' a')) :
    verdict (x >>= f) = verdict (x' >>= f') := by
  cases x with
  | error e =>
    cases x' with
    | error e' => exact congrArg Except.error (Except.error.inj hx)
    | ok a' => cases hx
  | ok a =>
    cases x' with
    | error e' => cases hx
    | ok a' => exact hf a a' rfl rfl

/-- What changes a result at its end changes the result. -/
theorem bind_eq_map_bind {α β γ : Type} {x : Result α} {f : α → Result β} {g : α → Result γ}
    {k : β → γ} (h : ∀ a, g a = (f a).map k) : (x >>= g) = (x >>= f).map k := by
  cases x with
  | error e => rfl
  | ok a => exact h a

/-- Mapping the result of a reading does not change whether it succeeds. -/
@[simp] theorem verdict_map {α β : Type} (r : Result α)
    (f : α → β) : verdict (r.map f) = verdict r := by
  cases r <;> rfl

namespace DidDocument

variable {did did' : String}

/-- Whether a method is read or skipped does not depend on the DID it is read for. -/
theorem parseMethod_isSome (vm : Value) :
    (parseMethod prim base58 did vm).map Option.isSome =
      (parseMethod prim base58 did' vm).map Option.isSome := by
  unfold parseMethod
  cases hid : (vm.get "id").bind Value.asStr with
  | none => simp [hid, okOr, bind, Except.bind, Except.map]
  | some id =>
    cases methodKey prim base58 vm with
    | error e => simp [hid, okOr, bind, Except.bind, Except.map]
    | ok key => cases key <;> simp [hid, okOr, bind, Except.bind, Except.map, pure, Except.pure]

/-- Whether reading a method succeeds does not depend on the DID it is read for. -/
theorem verdict_parseMethod (vm : Value) :
    verdict (parseMethod prim base58 did vm) = verdict (parseMethod prim base58 did' vm) := by
  have h := @parseMethod_isSome prim base58 did did' vm
  cases hdid : parseMethod prim base58 did vm <;> cases hdid' : parseMethod prim base58 did' vm <;>
    simp_all [verdict, Except.map]

/-- Whether reading the methods succeeds does not depend on the DID they are read for. -/
theorem verdict_parseMethods (vms : List Value) :
    verdict (parseMethods prim base58 did vms) = verdict (parseMethods prim base58 did' vms) := by
  induction vms with
  | nil => rfl
  | cons vm vms ih =>
    rw [parseMethods, parseMethods]
    exact verdict_bind (verdict_parseMethod vm) fun _ _ _ _ => verdict_bind ih fun _ _ _ _ => rfl

/-- Whether reading a relationship succeeds depends neither on the DID nor on the methods known. -/
theorem verdict_parseRelationship (entries : List Value)
    (methods methods' : List VerificationMethod) :
    verdict (parseRelationship prim base58 did entries methods) =
      verdict (parseRelationship prim base58 did' entries methods') := by
  -- under another DID the same entries are read, so both fail or neither does
  induction entries generalizing methods methods' with
  | nil => rfl
  | cons entry entries ih =>
    cases entry with
    | string reference =>
      rw [parseRelationship, parseRelationship]
      exact verdict_bind (ih methods methods') fun _ _ _ _ => rfl
    | object members =>
      rw [parseRelationship, parseRelationship]
      refine verdict_bind (verdict_parseMethod _) fun method method' h h' => ?_
      have hsome := @parseMethod_isSome prim base58 did did' (.object members)
      rw [h, h', Except.map, Except.map, Except.ok.injEq] at hsome
      cases method with
      | none =>
        obtain rfl : method' = none := by simpa using hsome.symm
        exact ih methods methods'
      | some m =>
        obtain ⟨m', rfl⟩ := Option.isSome_iff_exists.mp hsome.symm
        exact verdict_bind (ih _ _) fun _ _ _ _ => rfl
    | _ => rfl

/-- Whether reading the services succeeds does not depend on the DID they are read for. -/
theorem verdict_parseServices (i : ℕ) (services : List Value) :
    verdict (parseServices did i services) = verdict (parseServices did' i services) := by
  induction services generalizing i with
  | nil => rfl
  | cons service services ih =>
    rw [parseServices, parseServices]
    refine verdict_bind ?_ fun _ _ _ _ => verdict_bind (ih (i + 1)) fun _ _ _ _ => rfl
    unfold parseService
    exact verdict_bind rfl fun _ _ _ _ => rfl

/-- Adding an alias leaves every member but `alsoKnownAs` to be looked up as before. -/
theorem lookup_addAlias_of_ne {name other : String} {obj : List (String × Value)}
    (h : name ≠ "alsoKnownAs") :
    Value.lookup name (addAlias other obj) = Value.lookup name obj := by
  unfold addAlias
  split
  · exact Value.lookup_insert_of_ne h
  · exact Value.lookup_insert_of_ne h
  · rfl

/-- The aliases of a document that got one more; something else than a list of them is left
alone. -/
def aliases (other : String) (obj : List (String × Value)) : List String :=
  match Value.lookup "alsoKnownAs" obj with
  | none => [other]
  | some (.array list) => stringList (some (.array list)) ++ [other]
  | some _ => []

/-- After an alias was added the aliases read are those listed and the added one, or none where
`alsoKnownAs` is no list. -/
theorem stringList_addAlias (other : String) (obj : List (String × Value)) :
    stringList (Value.lookup "alsoKnownAs" (addAlias other obj)) = aliases other obj := by
  unfold addAlias aliases
  cases hlookup : Value.lookup "alsoKnownAs" obj with
  | none => simp [Value.lookup_insert_self, stringList, items, Value.asArray, Value.asStr]
  | some v =>
    cases v with
    | array list => simp [Value.lookup_insert_self, stringList, items, Value.asArray, Value.asStr]
    | _ => simp [hlookup, stringList, items, Value.asArray]

/-- Only the aliases depend on the aliases. -/
theorem fromJson_alsoKnownAs {obj obj' : List (String × Value)}
    (h : ∀ name, name ≠ "alsoKnownAs" → Value.lookup name obj' = Value.lookup name obj) :
    fromJson prim base58 (.object obj') = (fromJson prim base58 (.object obj)).map fun doc =>
      { doc with alsoKnownAs := stringList (Value.lookup "alsoKnownAs" obj') } := by
  rw [fromJson, fromJson]
  simp only [Value.asObject, okOr_some_bind]
  simp only [h "id" (by decide), h "verificationMethod" (by decide), h "authentication" (by decide),
    h "assertionMethod" (by decide), h "keyAgreement" (by decide), h "service" (by decide)]
  exact bind_eq_map_bind fun _ => bind_eq_map_bind fun _ => bind_eq_map_bind fun _ =>
    bind_eq_map_bind fun _ => bind_eq_map_bind fun _ => bind_eq_map_bind fun _ => rfl

/-- The document under a DID is the object's with this DID, and has one more alias. -/
theorem fromJson_underDid (asDid other : String) (obj : List (String × Value)) :
    fromJson prim base58 (underDid asDid other obj) =
      (fromJson prim base58 (.object (Value.insert "id" (.string asDid) obj))).map fun doc =>
        { doc with alsoKnownAs := aliases other obj } := by
  have halias : Value.lookup "alsoKnownAs" (Value.insert "id" (.string asDid) obj) =
      Value.lookup "alsoKnownAs" obj := Value.lookup_insert_of_ne (by decide)
  have hsame : aliases other (Value.insert "id" (.string asDid) obj) = aliases other obj := by
    unfold aliases
    rw [halias]
  rw [underDid, fromJson_alsoKnownAs fun name hname =>
    lookup_addAlias_of_ne hname, stringList_addAlias, hsame]

/-- Whether an object is read as a document does not depend on the DID it gets. -/
theorem verdict_fromJson_insert (obj : List (String × Value)) :
    verdict (fromJson prim base58 (.object (Value.insert "id" (.string did) obj))) =
      verdict (fromJson prim base58 (.object (Value.insert "id" (.string did') obj))) := by
  -- only the id depends on the DID
  have hrest : ∀ did name, name ≠ "id" →
      Value.lookup name (Value.insert "id" (.string did) obj) = Value.lookup name obj :=
    fun _ _ hname => Value.lookup_insert_of_ne hname
  rw [fromJson, fromJson]
  simp only [Value.asObject, okOr_some_bind, Value.lookup_insert_self,
    Option.bind_some, Value.asStr, hrest _ "verificationMethod" (by decide),
      hrest _ "authentication" (by decide),
    hrest _ "assertionMethod" (by decide), hrest _ "keyAgreement" (by decide),
      hrest _ "service" (by decide)]
  exact verdict_bind (verdict_parseMethods _) fun _ _ _ _ =>
    verdict_bind (verdict_parseRelationship _ _ _) fun _ _ _ _ =>
    verdict_bind (verdict_parseRelationship _ _ _) fun _ _ _ _ =>
    verdict_bind (verdict_parseRelationship _ _ _) fun _ _ _ _ =>
    verdict_bind (verdict_parseServices _ _) fun _ _ _ _ => rfl

end DidDocument

/-- A document has the id it was read with. -/
theorem DidDocument.id_of_fromJson {members : List (String × Value)} {did : String}
    {doc : DidDocument} (hid : Value.lookup "id" members = some (.string did))
    (h : DidDocument.fromJson prim base58 (.object members) = .ok doc) : doc.id = did := by
  rw [DidDocument.fromJson] at h
  simp only [Value.asObject, okOr_some_bind, hid, Option.bind_some, Value.asStr] at h
  obtain ⟨_, -, h⟩ := bind_eq_ok.mp h
  obtain ⟨_, -, h⟩ := bind_eq_ok.mp h
  obtain ⟨_, -, h⟩ := bind_eq_ok.mp h
  obtain ⟨_, -, h⟩ := bind_eq_ok.mp h
  obtain ⟨_, -, h⟩ := bind_eq_ok.mp h
  exact congrArg DidDocument.id (pure_eq_ok.mp h).symm

/-- A `did:peer:4` resolves to a document with the id asked for. -/
theorem id_of_resolvePeer4 [base58.Strict] {long asDid : String} {doc : DidDocument}
    (h : resolvePeer4 prim base58 long asDid = .ok doc) : doc.id = asDid := by
  obtain ⟨encoded, obj, -, -, hdoc⟩ := resolvePeer4_eq_ok.mp h
  refine DidDocument.id_of_fromJson ?_ hdoc
  rw [DidDocument.lookup_addAlias_of_ne (by decide), Value.lookup_insert_self]

/-- An input document is carried by the DID built for it. -/
theorem encodes_peer4 [base58.Strict] {input : List (String × Value)} {long : String}
    (hread : prim.value.fromSlice (prim.value.toVec (.object input)) = .ok (.object input))
    (h : peer4 prim base58 (.object input) = .ok long) :
    ∃ encoded, long = longOf prim base58 encoded ∧ Encodes prim base58 encoded input := by
  obtain ⟨-, h⟩ := guard_eq_ok.mp h
  exact ⟨_, (Except.ok.inj h).symm, _, _,
    Multikey.decodeBase58btc_encodeBase58btc Base58.Strict.toLawful.decode_encode _,
    Multikey.decodeVarint_encodeVarint _ (by decide), hread⟩

end Didcomm
