import AlmenaMediator.Didcomm.Did.PeerRoundTrip
import AlmenaMediator.Didcomm.Did.Resolver

/-!
# Whose keys a document lists

A `did:key` or `did:peer:2` is its own document, whoever made it up. Its document lists only key ids
of that very DID, and has a key for each (`lists_own`): a stranger cannot publish a DID that speaks
of the keys of another.
-/

namespace Didcomm

variable {prim : Primitives} {base58 : Base58} {toMontgomery : Bytes → Bytes}

/-- The document is of this DID, the key ids it lists are of this DID, and it has a key for each. -/
structure DidDocument.ListsOwn (did : String) (doc : DidDocument) : Prop where
  id : doc.id = did
  listed : ∀ kid ∈ doc.authentication ++ doc.assertionMethod ++ doc.keyAgreement,
    didOf kid = did ∧ (doc.method kid).isSome

/-- A document that fits its DID lists methods of its own only. -/
theorem DidDocument.Fit.listsOwn {did : String} {doc : DidDocument}
    (h : doc.Fit did) : doc.ListsOwn did := by
  refine ⟨h.id, fun kid hkid => ?_⟩
  rcases List.mem_append.mp hkid with hkid | hkid
  · obtain ⟨hown, m, hm, -⟩ := h.signing kid hkid
    exact ⟨hown, by rw [hm]; rfl⟩
  · obtain ⟨hown, m, hm, -⟩ := h.agreement kid hkid
    exact ⟨hown, by rw [hm]; rfl⟩

/-! ## The text of a `did:peer:2` -/

/-- A character that neither ends a DID nor separates its parts. -/
def IdChar (c : Char) : Prop := endsDid c = false ∧ c ≠ ':'

/-- Letters and digits can stand in an id. -/
theorem idChar_of_isAlphanum {c : Char} (hc : c.isAlphanum) : IdChar c := by
  refine ⟨endsDid_of_isAlphanum hc, ?_⟩
  rintro rfl
  exact absurd hc (by decide)

/-- The characters of base64url can stand in an id. -/
theorem idChar_of_ofChar {c : Char} {n : ℕ} (h : Base64Url.ofChar c = some n) : IdChar c := by
  constructor
  · by_contra hends
    simp only [endsDid, Bool.not_eq_false, Bool.or_eq_true, beq_iff_eq] at hends
    rcases hends with (rfl | rfl) | rfl <;> cases h
  · rintro rfl
    cases h

/-- Padding aside, trimming takes nothing away. -/
theorem mem_trimPadding {text : List Char} {c : Char}
    (hc : c ∈ text) : c = '=' ∨ c ∈ trimPadding text := by
  induction text using List.reverseRecOn with
  | nil => cases hc
  | append_singleton text d ih =>
    rw [trimPadding, List.rdropWhile_concat]
    split_ifs with hd
    · rcases List.mem_append.mp hc with hc | hc
      · exact ih hc
      · exact .inl ((List.mem_singleton.mp hc).trans (beq_iff_eq.mp hd))
    · exact .inr hc

/-- An element that is read has nothing in it that ends a DID or separates its parts. -/
theorem idChar_readElement [base58.Strict] {did : String} {found found' : Elements}
    {element : List Char} (h : readElement prim base58 did found element = .ok found') :
    ∀ c ∈ element, IdChar c := by
  intro c hc
  unfold readElement at h
  split at h
  · cases h
  -- a service element is base64url text with its padding
  · rename_i value
    obtain ⟨bytes, hbytes, -⟩ := bind_eq_ok.mp h
    rcases List.mem_cons.mp hc with rfl | hc
    · exact idChar_of_isAlphanum (by decide)
    · rcases mem_trimPadding hc with rfl | hc
      · exact ⟨by decide, by decide⟩
      · have hdecoded : Base64Url.decodeChars (trimPadding value) = some bytes := by
          simpa [b64Decode, Base64Url.decode] using hbytes
        obtain ⟨n, hn⟩ := Base64Url.ofChar_of_mem_decodeChars hdecoded hc
        exact idChar_of_ofChar hn
  · rename_i code value _
    obtain ⟨purpose, hpurpose, h⟩ := bind_eq_ok.mp h
    obtain ⟨key, hkey, -⟩ := bind_eq_ok.mp h
    rcases List.mem_cons.mp hc with rfl | hc
    · have hcode := okOr_eq_ok.mp hpurpose
      apply idChar_of_isAlphanum
      unfold Purpose.fromCode at hcode
      split at hcode <;> first | rfl | cases hcode
    · exact idChar_of_isAlphanum (Multikey.isAlphanum_of_decode hkey c (by simpa using hc))

/-- A character of joined texts is the separator or stands in one of the texts. -/
theorem mem_intercalate {c sep : Char} {texts : List (List Char)}
    (hc : c ∈ [sep].intercalate texts) : c = sep ∨ ∃ text ∈ texts, c ∈ text := by
  induction texts with
  | nil => cases hc
  | cons text texts ih =>
    cases texts with
    | nil => exact .inr ⟨text, List.mem_cons_self, by simpa [List.intercalate] using hc⟩
    | cons next rest =>
      have hsplit : [sep].intercalate (text :: next :: rest) =
          text ++ sep :: [sep].intercalate (next :: rest) := by
        simp [List.intercalate]
      rw [hsplit, List.mem_append, List.mem_cons] at hc
      rcases hc with hc | hc | hc
      · exact .inr ⟨text, List.mem_cons_self, hc⟩
      · exact .inl hc
      · obtain hsep | ⟨text', htext', hc⟩ := ih hc
        · exact .inl hsep
        · exact .inr ⟨text', List.mem_cons_of_mem _ htext', hc⟩

/-! ## The keys of a `did:peer:2` -/

/-- The method of a key element. -/
def elementMethod (did : String) (n : ℕ) (multikey : String) : Value :=
  .object [("id", .string (keyId n)), ("type", .string "Multikey"), ("controller", .string did),
    ("publicKeyMultibase", .string multikey)]

/-- Every method found has a key, and every id listed is of one of them. -/
structure Elements.Sound (prim : Primitives) (base58 : Base58) (did : String)
    (found : Elements) : Prop where
  methods : ∀ vm ∈ found.vms, ∃ n multikey key, vm = elementMethod did n multikey ∧
    Multikey.decode prim base58 multikey = .ok key
  listed : ∀ id ∈ found.authentication ++ found.assertion ++ found.keyAgreement,
    ∃ n multikey, elementMethod did n multikey ∈ found.vms ∧ id = .string (keyId n)

/-- Reading one more element keeps the elements found sound. -/
theorem Elements.Sound.readElement {did : String} {found found' : Elements} {element : List Char}
    (hsound : found.Sound prim base58 did)
    (h : readElement prim base58 did found element = .ok found') :
    found'.Sound prim base58 did := by
  unfold Didcomm.readElement at h
  split at h
  · cases h
  · obtain ⟨bytes, -, h⟩ := bind_eq_ok.mp h
    obtain ⟨service, -, h⟩ := bind_eq_ok.mp h
    obtain rfl := pure_eq_ok.mp h
    exact ⟨hsound.methods, hsound.listed⟩
  · rename_i code value _
    obtain ⟨purpose, -, h⟩ := bind_eq_ok.mp h
    obtain ⟨key, hkey, h⟩ := bind_eq_ok.mp h
    obtain rfl := pure_eq_ok.mp h
    -- a key element adds one method, and lists it under its purpose
    let vm := elementMethod did found.vms.length (String.ofList value)
    have hmethods : ∀ vm' ∈ found.vms ++ [vm], ∃ n multikey key,
      vm' = elementMethod did n multikey ∧
        Multikey.decode prim base58 multikey = .ok key := by
      refine List.forall_mem_append.mpr ⟨hsound.methods, fun vm' hvm => ?_⟩
      exact ⟨_, _, key, List.mem_singleton.mp hvm, hkey⟩
    have hbefore : ∀ id ∈ found.authentication ++ found.assertion ++ found.keyAgreement,
        ∃ n multikey, elementMethod did n multikey ∈ found.vms ++ [vm] ∧
          id = .string (keyId n) := by
      intro id hid
      obtain ⟨n, multikey, hmem, rfl⟩ := hsound.listed id hid
      exact ⟨n, multikey, List.mem_append_left _ hmem, rfl⟩
    have hnew : ∃ n multikey, elementMethod did n multikey ∈ found.vms ++ [vm] ∧
        Value.string (keyId found.vms.length) = .string (keyId n) :=
      ⟨_, _, List.mem_append_right _ (List.mem_singleton_self _), rfl⟩
    have hlisted : ∀ id, id ∈ found.authentication ++ found.assertion ++ found.keyAgreement ∨
        id = .string (keyId found.vms.length) →
        ∃ n multikey, elementMethod did n multikey ∈ found.vms ++ [vm] ∧
          id = .string (keyId n) := by
      rintro id (hid | rfl)
      · exact hbefore id hid
      · exact hnew
    cases purpose <;> refine ⟨hmethods, fun id hid => hlisted id ?_⟩ <;>
      simp only [Elements.relate, List.mem_append, List.mem_singleton] at hid ⊢ <;> tauto

/-- Elements that are all read leave the found ones sound, and only characters of an id stand in
them. -/
theorem foldlM_readElement [base58.Strict] {did : String} {elements : List (List Char)}
    {found found' : Elements} (hsound : found.Sound prim base58 did)
    (h : elements.foldlM (readElement prim base58 did) found = .ok found') :
    found'.Sound prim base58 did ∧ ∀ element ∈ elements, ∀ c ∈ element, IdChar c := by
  induction elements generalizing found with
  | nil =>
    obtain rfl := pure_eq_ok.mp h
    exact ⟨hsound, fun _ hmem => by cases hmem⟩
  | cons element elements ih =>
    rw [List.foldlM_cons] at h
    obtain ⟨next, hnext, h⟩ := bind_eq_ok.mp h
    obtain ⟨hfound, hrest⟩ := ih (hsound.readElement hnext) h
    exact ⟨hfound, List.forall_mem_cons.mpr ⟨idChar_readElement hnext, hrest⟩⟩

/-- The method made of the n-th key is read as a method of the DID with that key. -/
theorem parseMethod_elementMethod {did multikey : String} {key : PublicKey}
    (hkey : Multikey.decode prim base58 multikey = .ok key) (n : ℕ) :
    DidDocument.parseMethod prim base58 did (elementMethod did n multikey) =
      .ok (some ⟨did ++ keyId n, did, key⟩) := by
  have hmethod : DidDocument.methodKey prim base58
    (elementMethod did n multikey) = .ok (some key) := by
    simp [DidDocument.methodKey, elementMethod, Value.get, Value.lookup, Value.asStr,
      hkey, bind, Except.bind, pure, Except.pure]
  rw [DidDocument.parseMethod, hmethod]
  simp [elementMethod, Value.get, Value.lookup, Value.asStr, okOr, bind,
    Except.bind, pure, Except.pure, absolute_keyId]

/-- Every method found becomes one of the document. -/
theorem exists_of_parseMethods {did : String} {vms : List Value} {methods : List VerificationMethod}
    (hvms : ∀ vm ∈ vms, ∃ n multikey key, vm = elementMethod did n multikey ∧
      Multikey.decode prim base58 multikey = .ok key)
    (h : DidDocument.parseMethods prim base58 did vms = .ok methods) {n : ℕ} {multikey : String}
    (hmem : elementMethod did n multikey ∈ vms) : ∃ m ∈ methods, m.id = did ++ keyId n := by
  induction vms generalizing methods with
  | nil => cases hmem
  | cons vm vms ih =>
    obtain ⟨⟨n', multikey', key, rfl, hkey⟩, hrestMethods⟩ := List.forall_mem_cons.mp hvms
    rw [DidDocument.parseMethods, parseMethod_elementMethod hkey, ok_bind] at h
    obtain ⟨rest, hrest, h⟩ := bind_eq_ok.mp h
    obtain rfl := pure_eq_ok.mp h
    rcases List.mem_cons.mp hmem with heq | hmem
    · -- the id is a member of both
      have hid : keyId n = keyId n' :=
        (by simpa [elementMethod] using heq : keyId n = keyId n' ∧ _).1
      exact ⟨_, List.mem_append_left _ (List.mem_singleton_self _), by rw [hid]⟩
    · obtain ⟨m, hm, hid⟩ := ih hrestMethods hrest hmem
      exact ⟨m, List.mem_append_right _ hm, hid⟩

/-- A list of values that are strings. -/
theorem exists_map_string {values : List Value} (h : ∀ v ∈ values, ∃ s, v = .string s) :
    ∃ texts : List String, values = texts.map Value.string := by
  induction values with
  | nil => exact ⟨[], rfl⟩
  | cons v values ih =>
    obtain ⟨⟨s, rfl⟩, hrest⟩ := List.forall_mem_cons.mp h
    obtain ⟨texts, rfl⟩ := ih hrest
    exact ⟨s :: texts, rfl⟩

/-- What is found in a DID is read as a document of its keys. -/
theorem listsOwn_fromJson {did : String} {found : Elements} (hsound : found.Sound prim base58 did)
    (hdid : ∀ c ∈ did.toList, endsDid c = false) {doc : DidDocument}
    (h : DidDocument.fromJson prim base58 (.object
      [("id", .string did), ("verificationMethod", .array found.vms),
        ("authentication", .array found.authentication),
          ("assertionMethod", .array found.assertion), ("keyAgreement", .array found.keyAgreement),
            ("service", .array found.services)]) = .ok doc) : doc.ListsOwn did := by
  -- the relationships hold references only, so they add no method
  have hstring : ∀ id ∈ found.authentication ++ found.assertion ++ found.keyAgreement,
    ∃ s, id = .string s := by
    intro id hid
    obtain ⟨n, -, -, rfl⟩ := hsound.listed id hid
    exact ⟨_, rfl⟩
  simp only [List.mem_append, or_assoc] at hstring
  obtain ⟨authentication, hauthentication⟩ := exists_map_string fun id hid => hstring id (.inl hid)
  obtain ⟨assertion, hassertion⟩ := exists_map_string fun id hid => hstring id (.inr (.inl hid))
  obtain ⟨agreement, hagreement⟩ := exists_map_string fun id hid => hstring id (.inr (.inr hid))
  have hlisted := hsound.listed
  rw [hauthentication, hassertion, hagreement] at hlisted h
  rw [DidDocument.fromJson] at h
  simp only [Value.asObject, okOr_some_bind, Value.lookup, List.find?_cons,
    beq_self_eq_true, Option.map_some, Option.bind_some, Value.asStr, DidDocument.items,
      Value.asArray, Option.getD_some, DidDocument.parseRelationship_strings,
        ok_bind, String.reduceBEq] at h
  obtain ⟨methods, hmethods, h⟩ := bind_eq_ok.mp h
  obtain ⟨services, -, h⟩ := bind_eq_ok.mp h
  obtain rfl := pure_eq_ok.mp h
  refine ⟨rfl, fun kid hkid => ?_⟩
  simp only [← List.map_append, List.mem_map] at hkid
  obtain ⟨id, hid, rfl⟩ := hkid
  -- a listed kid is `did#key-n`, and the n-th element has made that method
  obtain ⟨n, multikey, hmem, heq⟩ := hlisted (.string id) (by simpa using hid)
  obtain rfl := Value.string.inj heq
  rw [absolute_keyId]
  obtain ⟨m, hm, hmid⟩ := exists_of_parseMethods hsound.methods hmethods hmem
  constructor
  · have hsplit : did ++ keyId n = did ++ "#" ++ ("key-" ++ toString (n + 1)) := by
      rw [keyId, ← String.toList_inj]
      simp
    rw [hsplit, didOf_fragment hdid]
  · rw [DidDocument.method, List.find?_isSome]
    exact ⟨m, hm, beq_iff_eq.mpr hmid⟩

/-- What is found in a `did:peer:2` that is resolved, and what comes after the numalgo. -/
theorem sound_of_resolvePeer2 [base58.Strict] {did : String} {doc : DidDocument}
    (h : resolvePeer2 prim base58 did = .ok doc) : ∃ (rest : String)
    (found : Elements), did = "did:peer:2." ++ rest ∧ (∀ c ∈ rest.toList, IdChar c) ∧
      found.Sound prim base58 did ∧ DidDocument.fromJson prim base58 (.object
        [("id", .string did), ("verificationMethod", .array found.vms),
          ("authentication", .array found.authentication),
            ("assertionMethod", .array found.assertion),
              ("keyAgreement", .array found.keyAgreement),
                ("service", .array found.services)]) = .ok doc := by
  obtain ⟨rest, hrest, h⟩ := bind_eq_ok.mp h
  obtain ⟨found, hfound, h⟩ := bind_eq_ok.mp h
  have hstart : Elements.Sound prim base58 did ⟨[], [], [], [], []⟩ := ⟨by simp, by simp⟩
  obtain ⟨hsound, hchars⟩ := foldlM_readElement hstart hfound
  refine ⟨rest, found, stripPrefix_eq_some.mp (okOr_eq_ok.mp hrest), fun c hc => ?_, hsound, h⟩
  -- a character of the DID is a dot or one of an element
  have hjoined : ['.'].intercalate (rest.toList.splitOn '.') = rest.toList :=
    List.intercalate_splitOn '.'
  rw [← hjoined] at hc
  rcases mem_intercalate hc with rfl | ⟨element, helement, hc⟩
  · exact ⟨by decide, by decide⟩
  · exact hchars element helement c hc

/-- A `did:peer:2` that is resolved has no fragment, query or path, and lists only its own keys. -/
theorem listsOwn_resolvePeer2 [base58.Strict] {did : String} {doc : DidDocument}
    (h : resolvePeer2 prim base58 did = .ok doc) : doc.ListsOwn did := by
  obtain ⟨rest, found, hdid, hchars, hsound, hdoc⟩ := sound_of_resolvePeer2 h
  refine listsOwn_fromJson hsound (fun c hc => ?_) hdoc
  rw [hdid, String.toList_append, List.mem_append] at hc
  rcases hc with hc | hc
  · have hstart : "did:peer:2.".toList.all (fun c => !endsDid c) = true := by decide
    simpa using List.all_eq_true.mp hstart c hc
  · exact (hchars c hc).1

/-- Whoever made up a DID that is its own document: the document lists only key ids of that DID, and
has a key for each. -/
theorem lists_own [base58.Strict] {did : String} {resolver : LocalResolver} {doc : DidDocument}
    (hself : startsWith did "did:key:" ∨ startsWith did "did:peer:2.")
    (h : (LocalResolver.resolve prim base58 toMontgomery did resolver).1 = .ok doc) :
    doc.ListsOwn did := by
  by_cases hkey : startsWith did "did:key:"
  · rw [LocalResolver.resolve, if_pos hkey] at h
    exact (fit_resolveKey h).listsOwn
  · have hpeer2 := hself.resolve_left hkey
    rw [LocalResolver.resolve, if_neg hkey, if_pos hpeer2] at h
    exact listsOwn_resolvePeer2 h

/-- A document read from a did:key of an Ed25519 key lists its own methods. -/
theorem lists_own_ed25519 :
    let prim := { Primitives.refusing with
      decodePoint := fun _ bytes => if bytes.length = 32 then some bytes else none }
    let key : PublicKey := ⟨.ed25519, List.replicate 32 7⟩
    let did := didKey bs58 key
    ∃ doc, (LocalResolver.resolve prim bs58 id did LocalResolver.new).1 = .ok doc ∧
      doc.ListsOwn did := by
  intro prim key did
  have hstart : startsWith did "did:key:" := by
    rw [startsWith, List.isPrefixOf_iff_prefix]
    exact ⟨_, String.toList_append.symm⟩
  -- the key is decoded from what it was encoded as
  have hkey := @resolveKey_didKey prim bs58 id bs58_lawful.decode_encode key rfl
  have hresolve : (LocalResolver.resolve prim bs58 id did LocalResolver.new).1 =
      .ok (keyDocument bs58 id did (Multikey.encode bs58 key) key) := by
    rw [LocalResolver.resolve, if_pos hstart]
    exact hkey
  exact ⟨_, hresolve, lists_own (.inl hstart) hresolve⟩

end Didcomm
