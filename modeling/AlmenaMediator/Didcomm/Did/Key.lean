import AlmenaMediator.Didcomm.Did.Multikey
import AlmenaMediator.Didcomm.Did.Document

/-!
# `did:key`

`did/key.rs`: a DID that is its own key. An Ed25519 `did:key` also gets the X25519 key derived from
it as its `keyAgreement` key; the derivation (`to_montgomery`) is a parameter.
-/

namespace Didcomm

variable (prim : Primitives) (base58 : Base58) (toMontgomery : Bytes → Bytes)

/-- The `did:key` for a key. -/
def didKey (key : PublicKey) : String := "did:key:" ++ Multikey.encode base58 key

/-- A method of a `did:key` document. -/
def keyMethod (did : String) (key : PublicKey) (fragment : String) : VerificationMethod where
  id := did ++ "#" ++ fragment
  controller := did
  key := key

/-- The document of a `did:key` that encodes a key. -/
def keyDocument (did encoded : String) (key : PublicKey) : DidDocument :=
  let main := keyMethod did key encoded
  let doc : DidDocument :=
    { id := did, alsoKnownAs := [], verificationMethod := [main], authentication := [],
      assertionMethod := [], keyAgreement := [], service := [] }
  match key.curve with
  | .ed25519 =>
    let x : PublicKey := ⟨.x25519, toMontgomery key.bytes⟩
    let derived := keyMethod did x (Multikey.encode base58 x)
    { doc with
      verificationMethod := [main, derived], authentication := [main.id],
      assertionMethod := [main.id], keyAgreement := [derived.id] }
  | .x25519 | .p384 | .p521 => { doc with keyAgreement := [main.id] }
  | .p256 =>
    { doc with
      authentication := [main.id], assertionMethod := [main.id], keyAgreement := [main.id] }
  | .secp256k1 => { doc with authentication := [main.id], assertionMethod := [main.id] }

/-- Resolves a `did:key`. -/
def resolveKey (did : String) : Result DidDocument := do
  let encoded ← okOr (.didNotFound did) (stripPrefix did "did:key:")
  let key ← Multikey.decode prim base58 encoded
  pure (keyDocument base58 toMontgomery did encoded key)

/-- Every id a document lists is a key id of its own DID and has a key there, on a curve that can do
what it is listed for. -/
structure DidDocument.Fit (did : String) (doc : DidDocument) : Prop where
  id : doc.id = did
  signing : ∀ kid ∈ doc.authentication ++ doc.assertionMethod, didOf kid = did ∧
    ∃ m, doc.method kid = some m ∧ m.key.curve.signatureAlg.isSome
  agreement : ∀ kid ∈ doc.keyAgreement, didOf kid = did ∧
    ∃ m, doc.method kid = some m ∧ m.key.curve.isKeyAgreement

variable {prim base58 toMontgomery}

/-- The DID of a key resolves to the document of that key. -/
theorem resolveKey_didKey (hbase58 : ∀ bytes, base58.decode (base58.encode bytes) = some bytes)
    {key : PublicKey} (hkey : prim.decodePoint key.curve key.bytes = some key.bytes) :
    resolveKey prim base58 toMontgomery (didKey base58 key) =
      .ok (keyDocument base58 toMontgomery (didKey base58 key)
        (Multikey.encode base58 key) key) := by
  have hstrip : stripPrefix (didKey base58 key) "did:key:" = some (Multikey.encode base58 key) :=
    stripPrefix_append _ _
  rw [resolveKey, hstrip]
  exact bind_eq_ok.mpr ⟨_, rfl, bind_eq_ok.mpr ⟨key, Multikey.decode_encode hbase58 hkey, rfl⟩⟩

/-- The DID of a key id, of a DID without fragment, query or path. -/
theorem didOf_fragment {did fragment : String} (hdid : ∀ c ∈ did.toList, endsDid c = false) :
    didOf (did ++ "#" ++ fragment) = did := by
  have htake :
      (did.toList ++ '#' :: fragment.toList).takeWhile (fun c => !endsDid c) = did.toList := by
    rw [List.takeWhile_append_of_pos fun c hc => by simp [hdid c hc]]
    simp [endsDid]
  simp [didOf, htake]

/-- No letter or digit ends a DID. -/
theorem endsDid_of_isAlphanum {c : Char} (hc : c.isAlphanum) : endsDid c = false := by
  by_contra h
  simp only [endsDid, Bool.not_eq_false, Bool.or_eq_true, beq_iff_eq] at h
  rcases h with (rfl | rfl) | rfl <;> exact absurd hc (by decide)

/-- A `did:key` that is resolved has no fragment, query or path. -/
theorem endsDid_resolveKey [base58.Strict] {did : String} {doc : DidDocument}
    (h : resolveKey prim base58 toMontgomery did = .ok doc) :
    ∀ c ∈ did.toList, endsDid c = false := by
  obtain ⟨encoded, hencoded, h⟩ := bind_eq_ok.mp h
  obtain ⟨key, hkey, -⟩ := bind_eq_ok.mp h
  obtain rfl := stripPrefix_eq_some.mp (okOr_eq_ok.mp hencoded)
  intro c hc
  rw [String.toList_append, List.mem_append] at hc
  rcases hc with hc | hc
  · have hstart : "did:key:".toList.all (fun c => !endsDid c) = true := by decide
    simpa using List.all_eq_true.mp hstart c hc
  · exact endsDid_of_isAlphanum (Multikey.isAlphanum_of_decode hkey c hc)

/-- The first method of the document has the key itself. -/
theorem method_keyDocument (did encoded : String) (key : PublicKey) :
    (keyDocument base58 toMontgomery did encoded key).method (did ++ "#" ++ encoded) =
      some (keyMethod did key encoded) := by
  obtain ⟨curve, bytes⟩ := key
  cases curve <;> simp [keyDocument, keyMethod, DidDocument.method]

/-- The document of any `did:key` lists only its own key ids, each with a key that can do what it is
listed for. -/
theorem fit_resolveKey [base58.Strict] {did : String} {doc : DidDocument}
    (h : resolveKey prim base58 toMontgomery did = .ok doc) : doc.Fit did := by
  have hends := endsDid_resolveKey h
  obtain ⟨encoded, -, h⟩ := bind_eq_ok.mp h
  obtain ⟨key, hkey, h⟩ := bind_eq_ok.mp h
  obtain rfl := pure_eq_ok.mp h
  have hown : ∀ fragment, didOf (did ++ "#" ++ fragment) = did := fun _ => didOf_fragment hends
  have hmain := @method_keyDocument base58 toMontgomery did encoded key
  constructor
  · cases hcurve : key.curve <;> simp [keyDocument, hcurve]
  · intro kid hkid
    have hcase : kid = did ++ "#" ++ encoded ∧ key.curve.signatureAlg.isSome := by
      cases hcurve : key.curve <;> simp [keyDocument, keyMethod, hcurve] at hkid <;>
        exact ⟨hkid, by decide⟩
    obtain ⟨rfl, hsigns⟩ := hcase
    exact ⟨hown _, _, hmain, hsigns⟩
  · intro kid hkid
    cases hcurve : key.curve with
    | ed25519 =>
      let x : PublicKey := ⟨.x25519, toMontgomery key.bytes⟩
      -- the derived key is on another curve, so its multikey is another one
      have hne : encoded ≠ Multikey.encode base58 x := by
        rintro rfl
        have hx := Multikey.curve_of_decode_encode Base58.Strict.toLawful.decode_encode hkey
        rw [hcurve] at hx
        cases hx
      obtain rfl : kid = did ++ "#" ++ Multikey.encode base58 x := by
        simpa [keyDocument, keyMethod, hcurve] using hkid
      refine ⟨hown _, keyMethod did x (Multikey.encode base58 x), ?_, rfl⟩
      simp [DidDocument.method, keyDocument, keyMethod, hcurve, hne, x]
    | secp256k1 => simp [keyDocument, hcurve] at hkid
    | _ =>
      obtain rfl : kid = did ++ "#" ++ encoded := by
        simpa [keyDocument, keyMethod, hcurve] using hkid
      exact ⟨hown _, _, hmain, by simp [keyMethod, hcurve, Curve.isKeyAgreement]⟩

end Didcomm
