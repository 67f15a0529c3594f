import AlmenaMediator.Didcomm.Reopening

/-!
# Packages that hide nothing

A choice of `Primitives` that keeps every law of `Primitives.Lawful`, to follow packed messages by
hand. Values are written as text that a reader can split without looking ahead, wire types as
values, keys are all the same and encryption returns what it is given.

## Main results

* `read_write`: a value is read back from its text;
* `eq_of_read`: what is read is such a text;
* `lawful`: the packages are lawful.
-/

namespace Didcomm.Transparent

/-! ## Values as text -/

/-- Each character after a `1`, then a `0`. -/
def writeChars : List Char → List Char
  | [] => ['0']
  | c :: cs => '1' :: c :: writeChars cs

/-- As many `1`s, then a `0`. -/
def writeNat : ℕ → List Char
  | 0 => ['0']
  | n + 1 => '1' :: writeNat n

mutual

/-- A value's text: a letter for its kind, then what it holds. -/
def write : Value → List Char
  | .null => ['n']
  | .bool true => ['t']
  | .bool false => ['f']
  | .number (.unsigned n) => 'u' :: writeNat n
  | .number (.negative n) => '-' :: writeNat n
  | .number (.float token) => '.' :: writeChars token.toList
  | .string s => 's' :: writeChars s.toList
  | .array items => 'a' :: writeItems items
  | .object members => 'o' :: writeMembers members

def writeItems : List Value → List Char
  | [] => ['0']
  | v :: vs => '1' :: (write v ++ writeItems vs)

def writeMembers : List (String × Value) → List Char
  | [] => ['0']
  | (name, v) :: members => '1' :: (writeChars name.toList ++ (write v ++ writeMembers members))

end

def readChars : List Char → Option (List Char × List Char)
  | '0' :: rest => some ([], rest)
  | '1' :: c :: rest => (readChars rest).map fun (cs, rest) => (c :: cs, rest)
  | _ => none

def readNat : List Char → Option (ℕ × List Char)
  | '0' :: rest => some (0, rest)
  | '1' :: rest => (readNat rest).map fun (n, rest) => (n + 1, rest)
  | _ => none

mutual

/-- Reads a value and returns what follows it. The number bounds how deep the reader goes. -/
def read : ℕ → List Char → Option (Value × List Char)
  | _ + 1, 'n' :: rest => some (.null, rest)
  | _ + 1, 't' :: rest => some (.bool true, rest)
  | _ + 1, 'f' :: rest => some (.bool false, rest)
  | _ + 1, 'u' :: rest => (readNat rest).map fun (n, rest) => (.number (.unsigned n), rest)
  | _ + 1, '-' :: rest => (readNat rest).map fun (n, rest) => (.number (.negative n), rest)
  | _ + 1, '.' :: rest => (readChars rest).map fun (cs, rest) =>
    (.number (.float (String.ofList cs)), rest)
  | _ + 1, 's' :: rest => (readChars rest).map fun (cs, rest) => (.string (String.ofList cs), rest)
  | fuel + 1, 'a' :: rest => (readItems fuel rest).map fun (items, rest) => (.array items, rest)
  | fuel + 1, 'o' :: rest => (readMembers fuel rest).map fun (members, rest) =>
      (.object members, rest)
  | _, _ => none

def readItems : ℕ → List Char → Option (List Value × List Char)
  | _ + 1, '0' :: rest => some ([], rest)
  | fuel + 1, '1' :: rest => do
    let (v, rest) ← read fuel rest
    let (vs, rest) ← readItems fuel rest
    pure (v :: vs, rest)
  | _, _ => none

def readMembers : ℕ → List Char → Option (List (String × Value) × List Char)
  | _ + 1, '0' :: rest => some ([], rest)
  | fuel + 1, '1' :: rest => do
    let (name, rest) ← readChars rest
    let (v, rest) ← read fuel rest
    let (members, rest) ← readMembers fuel rest
    pure ((String.ofList name, v) :: members, rest)
  | _, _ => none

end

/-- A text is read back from its characters, and what follows is left. -/
@[simp] theorem readChars_writeChars (cs rest : List Char) :
    readChars (writeChars cs ++ rest) = some (cs, rest) := by
  induction cs with
  | nil => rfl
  | cons c cs ih => simp [writeChars, readChars, ih]

/-- A number is read back from its strokes, and what follows is left. -/
@[simp] theorem readNat_writeNat (n : ℕ) (rest : List Char) :
    readNat (writeNat n ++ rest) = some (n, rest) := by
  induction n with
  | zero => rfl
  | succ n ih => simp [writeNat, readNat, ih]

/-- No value is written as nothing. -/
theorem length_write_pos (v : Value) : 0 < (write v).length := by
  match v with
  | .null | .bool true | .bool false | .number (.unsigned n) | .number (.negative n)
  | .number (.float token) | .string s | .array items | .object members => simp [write]

mutual

/-- A value is read back from its text, whatever follows it. -/
theorem read_write (v : Value) (fuel : ℕ) (rest : List Char) (hfuel : (write v).length ≤ fuel) :
    read fuel (write v ++ rest) = some (v, rest) := by
  cases fuel with
  | zero => exact absurd (length_write_pos v) (by omega)
  | succ fuel =>
    match v with
    | .null | .bool true | .bool false => rfl
    | .number (.unsigned n) | .number (.negative n) | .number (.float token) | .string s =>
      simp [write, read]
    | .array items =>
      have hitems := readItems_writeItems items fuel rest (by simpa [write] using hfuel)
      simp [write, read, hitems]
    | .object members =>
      have hmembers := readMembers_writeMembers members fuel rest (by simpa [write] using hfuel)
      simp [write, read, hmembers]

/-- A list of items is read back, and what follows is left. -/
theorem readItems_writeItems (items : List Value) (fuel : ℕ) (rest : List Char)
    (hfuel : (writeItems items).length ≤ fuel) :
    readItems fuel (writeItems items ++ rest) = some (items, rest) := by
  cases fuel with
  | zero => cases items <;> simp [writeItems] at hfuel
  | succ fuel =>
    match items with
    | [] => rfl
    | v :: vs =>
      simp only [writeItems, List.length_cons, List.length_append] at hfuel
      have hv := read_write v fuel (writeItems vs ++ rest) (by omega)
      have hvs := readItems_writeItems vs fuel rest (by omega)
      simp [writeItems, readItems, hv, hvs]

/-- A list of members is read back, and what follows is left. -/
theorem readMembers_writeMembers (members : List (String × Value)) (fuel : ℕ) (rest : List Char)
    (hfuel : (writeMembers members).length ≤ fuel) :
    readMembers fuel (writeMembers members ++ rest) = some (members, rest) := by
  cases fuel with
  | zero => cases members <;> simp [writeMembers] at hfuel
  | succ fuel =>
    match members with
    | [] => rfl
    | (name, v) :: members =>
      simp only [writeMembers, List.length_cons, List.length_append] at hfuel
      have hv := read_write v fuel (writeMembers members ++ rest) (by omega)
      have hmembers := readMembers_writeMembers members fuel rest (by omega)
      simp [writeMembers, readMembers, hv, hmembers]

end

/-- What is read as a text is the written text and the rest. -/
theorem eq_of_readChars {text cs rest : List Char} (h : readChars text = some (cs, rest)) :
    text = writeChars cs ++ rest := by
  fun_induction readChars text generalizing cs rest with
  | case1 =>
    obtain ⟨rfl, rfl⟩ := Prod.mk.inj (Option.some.inj h)
    rfl
  | case2 c tail ih =>
    obtain ⟨⟨cs', rest'⟩, hread, heq⟩ := Option.map_eq_some_iff.mp h
    obtain ⟨rfl, rfl⟩ := Prod.mk.inj heq
    rw [ih hread]
    rfl
  | case3 => exact absurd h.symm (Option.some_ne_none _)

/-- What is read as a number is the written number and the rest. -/
theorem eq_of_readNat {text rest : List Char} {n : ℕ} (h : readNat text = some (n, rest)) :
    text = writeNat n ++ rest := by
  fun_induction readNat text generalizing n rest with
  | case1 =>
    obtain ⟨rfl, rfl⟩ := Prod.mk.inj (Option.some.inj h)
    rfl
  | case2 tail ih =>
    obtain ⟨⟨m, rest'⟩, hread, heq⟩ := Option.map_eq_some_iff.mp h
    obtain ⟨rfl, rfl⟩ := Prod.mk.inj heq
    rw [ih hread]
    rfl
  | case3 => exact absurd h.symm (Option.some_ne_none _)

/-- What is read is the text of what is returned. -/
theorem eq_of_read (fuel : ℕ) {text rest : List Char} :
    (∀ {v}, read fuel text = some (v, rest) → text = write v ++ rest) ∧
    (∀ {items}, readItems fuel text = some (items, rest) → text = writeItems items ++ rest) ∧
    (∀ {members}, readMembers fuel text = some (members, rest) →
      text = writeMembers members ++ rest) := by
  -- values, items and members at once, as the three readers call each other
  induction fuel generalizing text rest with
  | zero =>
    refine ⟨fun h => ?_, fun h => ?_, fun h => ?_⟩
    · simp [read] at h
    · simp [readItems] at h
    · simp [readMembers] at h
  | succ fuel ih =>
    refine ⟨fun {v} h => ?_, fun {items} h => ?_, fun {members} h => ?_⟩
    · rw [read.eq_def] at h
      split at h
      all_goals simp only [Option.map_eq_some_iff, Option.some.injEq, Prod.mk.injEq, Prod.exists,
        reduceCtorEq] at h
      case _ | _ | _ =>
        obtain ⟨rfl, rfl⟩ := h
        rfl
      case _ | _ =>
        obtain ⟨n, _, hread, rfl, rfl⟩ := h
        rw [eq_of_readNat hread]
        rfl
      case _ | _ =>
        obtain ⟨cs, _, hread, rfl, rfl⟩ := h
        rw [eq_of_readChars hread, write, String.toList_ofList]
        rfl
      case _ heq =>
        obtain ⟨items, _, hread, rfl, rfl⟩ := h
        rw [(Nat.succ.inj heq).symm] at hread
        rw [ih.2.1 hread]
        rfl
      case _ heq =>
        obtain ⟨items, _, hread, rfl, rfl⟩ := h
        rw [(Nat.succ.inj heq).symm] at hread
        rw [ih.2.2 hread]
        rfl
    · rw [readItems.eq_def] at h
      split at h
      all_goals simp only [Option.bind_eq_bind, Option.bind_eq_some_iff, Option.pure_def,
        Option.some.injEq, Prod.mk.injEq, Prod.exists, reduceCtorEq] at h
      · obtain ⟨rfl, rfl⟩ := h
        rfl
      case _ heq =>
        obtain ⟨v, _, hread, vs, _, hreads, rfl, rfl⟩ := h
        rw [(Nat.succ.inj heq).symm] at hread hreads
        rw [ih.1 hread, ih.2.1 hreads, writeItems]
        simp
    · rw [readMembers.eq_def] at h
      split at h
      all_goals simp only [Option.bind_eq_bind, Option.bind_eq_some_iff, Option.pure_def,
        Option.some.injEq, Prod.mk.injEq, Prod.exists, reduceCtorEq] at h
      · obtain ⟨rfl, rfl⟩ := h
        rfl
      case _ heq =>
        obtain ⟨name, _, hname, v, _, hread, vs, _, hreads, rfl, rfl⟩ := h
        rw [(Nat.succ.inj heq).symm] at hread hreads
        rw [eq_of_readChars hname, ih.1 hread, ih.2.2 hreads, writeMembers, String.toList_ofList]
        simp

/-! ## Wire types as values -/

/-- Reads a type that is read from values from their text. -/
def readText {α : Type} (ofValue : Value → Option α) (bytes : Bytes) : Except String α :=
  match fromUtf8 bytes with
  | some text =>
    match read text.toList.length text.toList with
    | some (v, []) =>
      match ofValue v with
      | some a => .ok a
      | none => .error ""
    | _ => .error ""
  | none => .error ""

/-- Reads and writes a type as values, and these as text. -/
def serde {α : Type} (toValue : α → Value) (ofValue : Value → Option α) : Serde α where
  fromSlice := readText ofValue
  toText a := String.ofList (write (toValue a))

/-- What is read from a value is read from its text. -/
theorem readText_write {α : Type} {ofValue : Value → Option α} {v : Value} {a : α}
    (h : ofValue v = some a) : readText ofValue (utf8 (String.ofList (write v))) = .ok a := by
  have hread := read_write v (write v).length [] le_rfl
  rw [List.append_nil] at hread
  simp only [readText, fromUtf8_utf8, String.toList_ofList, hread, h]

def ofContentEncryption : ContentEncryption → Value
  | .a256CbcHs512 => .ofNat 0
  | .a256Gcm => .ofNat 1
  | .xc20p => .ofNat 2

def contentEncryption : Value → Option ContentEncryption
  | .number (.unsigned 0) => some .a256CbcHs512
  | .number (.unsigned 1) => some .a256Gcm
  | .number (.unsigned 2) => some .xc20p
  | _ => none

def ofKeyWrap : KeyWrap → Value
  | .ecdhEsA256Kw => .bool false
  | .ecdh1PuA256Kw => .bool true

def keyWrap : Value → Option KeyWrap
  | .bool false => some .ecdhEsA256Kw
  | .bool true => some .ecdh1PuA256Kw
  | _ => none

def ofJwk (jwk : Jwk) : Value :=
  .array [.string jwk.kty, .string jwk.crv, .string jwk.x, .ofOption jwk.y, .ofOption jwk.d,
    .ofOption jwk.kid]

def jwk : Value → Option Jwk
  | .array [.string kty, .string crv, .string x, y, d, kid] =>
    some ⟨kty, crv, x, y.asStr, d.asStr, kid.asStr⟩
  | _ => none

def ofJweHeader (header : JweProtectedHeader) : Value :=
  .array [.ofOption header.typ, ofKeyWrap header.alg,
    ofContentEncryption header.enc, ofJwk header.epk, .ofOption header.skid,
      .ofOption header.apu, .string header.apv]

def jweHeader : Value → Option JweProtectedHeader
  | .array [typ, alg, enc, epk, skid, apu, .string apv] => do
    pure { typ := typ.asStr, alg := ← keyWrap alg, enc := ← contentEncryption enc, epk := ← jwk epk,
           skid := skid.asStr, apu := apu.asStr, apv := apv }
  | _ => none

def ofJwe (jwe : Jwe) : Value :=
  .object [("protected", .string jwe.protected),
    ("recipients", .array (jwe.recipients.map fun r =>
      .array [.string r.kid, .string r.encryptedKey])), ("iv", .string jwe.iv),
        ("ciphertext", .string jwe.ciphertext), ("tag", .string jwe.tag)]

def jweRecipient : Value → Option JweRecipient
  | .array [.string kid, .string encryptedKey] => some ⟨kid, encryptedKey⟩
  | _ => none

def jwe : Value → Option Jwe
  | .object [(_, .string protectedText), (_, .array recipients), (_, .string iv),
      (_, .string ciphertext), (_, .string tag)] =>
    some ⟨protectedText, recipients.filterMap jweRecipient, iv, ciphertext, tag⟩
  | _ => none

/-- An optional text is read back from its JSON. -/
@[simp] theorem asStr_ofOption (s : Option String) : (Value.ofOption s).asStr = s := by
  cases s <;> rfl

/-- A JWE header is read back from its JSON. -/
theorem jweHeader_ofJweHeader (header : JweProtectedHeader) :
    jweHeader (ofJweHeader header) = some header := by
  obtain ⟨typ, alg, enc, epk, skid, apu, apv⟩ := header
  cases alg <;> cases enc <;>
    simp [ofJweHeader, jweHeader, ofKeyWrap, keyWrap, ofContentEncryption,
      contentEncryption, ofJwk, jwk, Value.ofNat]

/-- A JWE is read back from its JSON. -/
theorem jwe_ofJwe (envelope : Jwe) : jwe (ofJwe envelope) = some envelope := by
  have hrecipients : (envelope.recipients.map fun r =>
      Value.array [.string r.kid, .string r.encryptedKey]).filterMap jweRecipient =
      envelope.recipients := by
    rw [List.filterMap_map]
    exact List.filterMap_some
  simp only [ofJwe, jwe, hrecipients]

def ofJws (jws : Jws) : Value :=
  .object [("payload", .string jws.payload),
    ("signatures", .array (jws.signatures.map fun s =>
      .array [.string s.protected, .string s.signature, .ofOption s.header]))]

def jwsSignature : Value → Option JwsSignature
  | .array [.string protectedText, .string signature, header] =>
    some ⟨protectedText, signature, header.asStr⟩
  | _ => none

def jwsInput : Value → Option JwsInput
  | .object [(_, .string payload), (_, .array signatures)] =>
    some (.general payload (signatures.filterMap jwsSignature))
  | _ => none

def ofJwsHeader (header : JwsProtectedHeader) : Value :=
  .array [.ofOption header.typ, .string header.alg, .ofOption header.kid]

def jwsHeader : Value → Option JwsProtectedHeader
  | .array [typ, .string alg, kid] => some ⟨typ.asStr, alg, kid.asStr⟩
  | _ => none

/-- A JWS is read back from its JSON, in the general form. -/
theorem jwsInput_ofJws (jws : Jws) :
    jwsInput (ofJws jws) = some (.general jws.payload jws.signatures) := by
  have hsignatures : (jws.signatures.map fun s =>
      Value.array [.string s.protected, .string s.signature, .ofOption s.header]).filterMap
        jwsSignature = jws.signatures := by
    rw [List.filterMap_map]
    refine (List.filterMap_congr fun s _ => ?_).trans List.filterMap_some
    simp [jwsSignature]
  simp only [ofJws, jwsInput, hsignatures]

/-- A JWS header is read back from its JSON. -/
theorem jwsHeader_ofJwsHeader (header : JwsProtectedHeader) :
    jwsHeader (ofJwsHeader header) = some header := by
  simp [ofJwsHeader, jwsHeader]

/-! ## Messages as values -/

def ofNatOption : Option ℕ → Value
  | some n => .ofNat n
  | none => .null

def ofStrings : Option (List String) → Value
  | some items => .array (items.map .string)
  | none => .null

def strings (v : Value) : Option (List String) := v.asArray.map fun items =>
    items.filterMap Value.asStr

/-- A value that is `null` when it is absent. -/
def ofValueOption : Option Value → Value
  | some v => v
  | none => .null

def valueOption (v : Value) : Option Value := if v = .null then none else some v

def ofAttachment (a : Attachment) : Value :=
  .array [.ofOption a.id, .ofOption a.description, .ofOption a.filename, .ofOption a.mediaType,
    .ofOption a.format, ofNatOption a.lastmodTime, ofNatOption a.byteCount,
      ofValueOption a.data.jws, .ofOption a.data.hash, ofStrings a.data.links,
        .ofOption a.data.base64, ofValueOption a.data.json]

def attachment : Value → Option Attachment
  | .array [id, description, filename, mediaType, format, lastmodTime, byteCount,
      jws, hash, links, base64, json] =>
    some
      { id := id.asStr, description := description.asStr, filename := filename.asStr,
        mediaType := mediaType.asStr, format := format.asStr, lastmodTime := lastmodTime.asU64,
        byteCount := byteCount.asU64,
        data := { jws := valueOption jws, hash := hash.asStr, links := strings links,
                  base64 := base64.asStr, json := valueOption json } }
  | _ => none

def ofAttachments : Option (List Attachment) → Value
  | some items => .array (items.map ofAttachment)
  | none => .null

def attachments (v : Value) : Option (List Attachment) :=
  v.asArray.map fun items => items.filterMap attachment

/-- The headers of a message, in the order of `Message.headerNames`, and then the others. -/
def messageMembers (m : Message) : List (String × Value) :=
  ("id", .string m.id) :: ("type", .string m.type_) :: ("typ", .ofOption m.typ) ::
    ("from", .ofOption m.from_) :: ("to", ofStrings m.to_) :: ("thid", .ofOption m.thid) ::
    ("pthid", .ofOption m.pthid) :: ("created_time", ofNatOption m.createdTime) ::
    ("expires_time", ofNatOption m.expiresTime) :: ("body", m.body) ::
    ("attachments", ofAttachments m.attachments) :: ("from_prior", .ofOption m.fromPrior) ::
    m.extraHeaders

def message : Value → Except String Message
  | .object ((_, .string id) :: (_, .string type_) :: (_, typ) :: (_, from_) ::
      (_, to_) :: (_, thid) :: (_, pthid) :: (_, createdTime) :: (_, expiresTime) :: (_, body) ::
      (_, items) :: (_, fromPrior) :: extraHeaders) =>
    .ok
      { id := id, type_ := type_, typ := typ.asStr, from_ := from_.asStr, to_ := strings to_,
        thid := thid.asStr, pthid := pthid.asStr, createdTime := createdTime.asU64,
        expiresTime := expiresTime.asU64, body := body, attachments := attachments items,
        fromPrior := fromPrior.asStr, extraHeaders := extraHeaders }
  | _ => .error ""

/-- An optional number is read back from its JSON. -/
@[simp] theorem asU64_ofNatOption (n : Option ℕ) : (ofNatOption n).asU64 = n := by
  cases n <;> rfl

/-- An optional list of texts is read back from its JSON. -/
@[simp] theorem strings_ofStrings (items : Option (List String)) :
    strings (ofStrings items) = items := by
  cases items with
  | none => rfl
  | some items =>
    have hitems : (items.map Value.string).filterMap Value.asStr = items := by
      rw [List.filterMap_map]
      exact List.filterMap_some
    exact congrArg some hitems

/-- An optional value other than null is read back from its JSON. -/
theorem valueOption_ofValueOption {v : Option Value} (h : ∀ w, v = some w → w ≠ .null) :
    valueOption (ofValueOption v) = v := by
  cases v with
  | none => rfl
  | some w => exact if_neg (h w rfl)

/-- An attachment that can be written is read back from its JSON. -/
theorem attachment_ofAttachment {prim : Primitives} {a : Attachment} (hwritable : a.Writable prim) :
    attachment (ofAttachment a) = some a := by
  have hjws := valueOption_ofValueOption fun v hv => (hwritable.jws v hv).1
  have hjson := valueOption_ofValueOption fun v hv => (hwritable.json v hv).1
  simp [ofAttachment, attachment, hjws, hjson]

/-- A message that can be written is read back from its members. -/
theorem message_messageMembers {prim : Primitives} {m : Message} (hwritable : m.Writable prim) :
    message (.object (messageMembers m)) = .ok m := by
  have hattachments : attachments (ofAttachments m.attachments) = m.attachments := by
    cases hm : m.attachments with
    | none => rfl
    | some items =>
      have hitems : (items.map ofAttachment).filterMap attachment = items := by
        rw [List.filterMap_map]
        refine (List.filterMap_congr fun a ha => ?_).trans List.filterMap_some
        exact attachment_ofAttachment (hwritable.attachments a (by rw [hm]; exact ha))
      exact congrArg some hitems
  simp [messageMembers, message, hattachments]

/-! ## The packages -/

/-- Cuts to `n` bytes, or fills up with zeros. -/
def fit (n : ℕ) (bytes : Bytes) : Bytes := (bytes ++ List.replicate n 0).take n

/-- Bytes that are made to fit a length have this length. -/
@[simp] theorem length_fit (n : ℕ) (bytes : Bytes) : (fit n bytes).length = n := by
  simp [fit]

/-- Takes one more byte into a digest. -/
def absorb : Bytes → UInt8 → Bytes
  | [], _ => []
  | b :: rest, byte => rest ++ [31 * b + byte]

/-- A digest of 32 bytes. -/
def digest (bytes : Bytes) : Bytes := bytes.foldl absorb (List.replicate 32 1)

/-- The digest has the length of a SHA-256 value. -/
@[simp] theorem length_digest (bytes : Bytes) : (digest bytes).length = 32 := by
  have habsorb : ∀ state byte, (absorb state byte).length = state.length := by
    intro state byte
    cases state <;> simp [absorb]
  suffices h : ∀ state : Bytes, (bytes.foldl absorb state).length = state.length from
    (h _).trans List.length_replicate
  induction bytes with
  | nil => exact fun _ => rfl
  | cons byte bytes ih => exact fun state => (ih _).trans (habsorb state byte)

/-- The public half of a key has the bytes of the key; a point on a Weierstrass curve has two equal
coordinates, and the first one and a sign byte when it is compressed. -/
def publicBytes (key : SecretKey) : Bytes :=
  match key.curve with
  | .ed25519 | .x25519 => fit key.curve.fieldLen key.bytes
  | curve => 0x02 :: fit curve.fieldLen key.bytes

/-- A public key has at most one byte more than a field element of its curve. -/
theorem length_publicBytes_le (key : SecretKey) :
    (publicBytes key).length ≤ 1 + key.curve.fieldLen := by
  obtain ⟨curve, bytes⟩ := key
  cases curve <;> simp [publicBytes, Nat.add_comm]

/-- Reads what `publicBytes` makes, compressed or not. -/
def decodePoint (curve : Curve) (bytes : Bytes) : Option Bytes :=
  match curve with
  | .ed25519 | .x25519 => if bytes.length = curve.fieldLen then some bytes else none
  | curve =>
    match bytes with
    | 0x02 :: x => if x.length = curve.fieldLen then some bytes else none
    | 0x04 :: point =>
      let (x, y) := point.splitAt curve.fieldLen
      if x.length = curve.fieldLen ∧ x = y then some (0x02 :: x) else none
    | _ => none

/-- The other coordinate of a point is the one it has. -/
def uncompress (bytes : Bytes) : Bytes := 0x04 :: (bytes.drop 1 ++ bytes.drop 1)

/-- A point that is compressed is read as it is. -/
theorem decodePoint_publicBytes (key : SecretKey) :
    decodePoint key.curve (publicBytes key) = some (publicBytes key) := by
  obtain ⟨curve, bytes⟩ := key
  cases curve <;> simp [decodePoint, publicBytes]

/-- A point is read from both its coordinates. -/
theorem decodePoint_uncompressed {curve : Curve} (hcurve : curve.jwkKty = "EC") {x : Bytes}
    (hx : x.length = curve.fieldLen) : decodePoint curve (0x04 :: (x ++ x)) = some (0x02 :: x) := by
  cases curve <;> simp [Curve.jwkKty] at hcurve <;> simp [decodePoint, hx]

/-- Bytes fit their own length as they are. -/
@[simp] theorem fit_length (bytes : Bytes) : fit bytes.length bytes = bytes := by
  simp [fit]

/-- Whatever is read is the public half of a key. -/
theorem exists_of_decodePoint {curve : Curve} {bytes canonical : Bytes}
    (h : decodePoint curve bytes = some canonical) :
    ∃ secret, publicBytes ⟨curve, secret⟩ = canonical := by
  have hedwards : ∀ x : Bytes, x.length = curve.fieldLen → fit curve.fieldLen x = x :=
    fun x hx => hx ▸ fit_length x
  -- on a NIST curve the canonical form is the compressed one
  have hpoint : ∀ x : Bytes, x.length = curve.fieldLen → canonical = 0x02 :: x →
      ∃ secret, 0x02 :: fit curve.fieldLen secret = canonical :=
    fun x hx hcanonical => ⟨x, by rw [hedwards x hx, hcanonical]⟩
  unfold decodePoint at h
  split at h
  · split_ifs at h with hlength
    exact ⟨bytes, (hedwards bytes hlength).trans (Option.some.inj h)⟩
  · split_ifs at h with hlength
    exact ⟨bytes, (hedwards bytes hlength).trans (Option.some.inj h)⟩
  · obtain ⟨secret, hsecret⟩ : ∃ secret, 0x02 :: fit curve.fieldLen secret = canonical := by
      split at h
      · split_ifs at h with hlength
        exact hpoint _ hlength (Option.some.inj h).symm
      · simp only [List.splitAt_eq] at h
        split_ifs at h with hlength
        exact hpoint _ hlength.1 (Option.some.inj h).symm
      · cases h
    refine ⟨secret, ?_⟩
    unfold publicBytes
    split <;> first | exact hsecret | contradiction

/-- What encrypts nothing and signs with a digest: wrapping a key pads it and a ciphertext is the
plaintext. -/
def packages : Primitives where
  value := serde id some
  jwe := serde ofJwe jwe
  jweHeader := serde ofJweHeader jweHeader
  jwsInput := readText jwsInput
  jwsText jws := String.ofList (write (ofJws jws))
  jwsHeader := serde ofJwsHeader jwsHeader
  messageOf := message
  messageText m := String.ofList (write (.object (messageMembers m)))
  fromPrior := Primitives.refusing.fromPrior
  possession := Primitives.refusing.possession
  sha256 := digest
  decodePoint := decodePoint
  uncompress _ := uncompress
  publicBytes := publicBytes
  verifies _ key message signature := signature == digest (key ++ message)
  signs key message := some (digest (publicBytes key ++ message))
  ecdh key other := some (List.zipWith (· + ·) (publicBytes key) other.bytes)
  wrapKey _ cek := some (cek ++ List.replicate 8 0)
  unwrapKey _ wrapped := some (wrapped.take (wrapped.length - 8))
  cipherEncrypt _ _ _ _ plaintext := .ok (plaintext, [])
  cipherDecrypt _ _ _ _ ciphertext _ := .ok ciphertext

/-- Every value is read back. -/
theorem keeps (v : Value) : packages.Keeps v := readText_write rfl

/-- The transparent packages are lawful, so that the laws contradict neither each other nor the
code. -/
theorem lawful : packages.Lawful where
  value_read _ := keeps _
  value_string s := keeps _
  value_object members _ _ := keeps _
  jwe envelope := by
    have hparse : Jwe.parse packages (envelope.toJson packages) = .ok envelope :=
      ofJson_eq_ok.mpr (readText_write (jwe_ofJwe envelope))
    exact ⟨_, keeps (ofJwe envelope), rfl, hparse, hparse⟩
  jweHeader header := readText_write (jweHeader_ofJweHeader header)
  jws jws := ⟨_, keeps (ofJws jws), rfl, rfl, readText_write (jwsInput_ofJws jws)⟩
  jwsHeader header := readText_write (jwsHeader_ofJwsHeader header)
  message m hwritable := by
    refine ⟨messageMembers m, keeps _, message_messageMembers hwritable, fun e he => ?_⟩
    have hnames : (messageMembers m).map Prod.fst =
      Message.headerNames ++ m.extraHeaders.map Prod.fst := rfl
    have he' : e.1 ∈ (messageMembers m).map Prod.fst := List.mem_map_of_mem he
    rw [hnames] at he'
    exact List.mem_append.mp he'
  decodes_okp key _ := decodePoint_publicBytes key
  -- a JWK of a NIST curve carries both coordinates, the second of which is not read
  decodes_ec key hec := by
    have hx := length_fit key.curve.fieldLen key.bytes
    have hpublic : packages.publicBytes key = 0x02 :: fit key.curve.fieldLen key.bytes := by
      obtain ⟨curve, bytes⟩ := key
      cases curve <;> simp [Curve.jwkKty] at hec <;> rfl
    refine ⟨_, _, hx, hx, ?_, hpublic ▸ decodePoint_uncompressed hec hx⟩
    rw [hpublic]
    rfl
  ecdh_comm _ h := by
    rw [← h]
    exact congrArg some (List.zipWith_comm_of_comm UInt8.add_comm)
  unwrap_wrap h := by
    obtain rfl := Option.some.inj h
    simp [packages]
  decrypt_encrypt h := by
    obtain ⟨rfl, -⟩ := Prod.mk.inj (Except.ok.inj h)
    rfl
  verifies_signs h := beq_iff_eq.mpr (Option.some.inj h).symm

end Didcomm.Transparent
