import AlmenaMediator.Library.Base64Url
import Mathlib.Data.List.Forall2
import Mathlib.Data.List.TakeWhile

/-!
# Errors, byte strings and DID URLs

What the rest of the DIDComm crate shares: its error type (`error.rs`), UTF-8 and base64url
(`b64.rs`), and the DID part of a DID URL (`did/document.rs`, `did_of`).
-/

namespace Didcomm

/-- A byte string. -/
abbrev Bytes := List UInt8

/-- Errors of the DIDComm crate. -/
inductive Error
  /-- Input that does not parse or breaks the DIDComm / JOSE structure rules. -/
  | malformed (reason : String)
  /-- Well-formed input that uses an algorithm, curve or feature that is not supported. -/
  | unsupported (reason : String)
  /-- Key material that is not a valid key for its type. -/
  | invalidKey (reason : String)
  /-- A signature, tag or key unwrap that does not verify. -/
  | crypto (reason : String)
  /-- A DID that could not be resolved. -/
  | didNotFound (did : String)
  /-- A DID URL that its DID document does not contain. -/
  | didUrlNotFound (url : String)
  /-- None of our secrets can act for the given key ids. -/
  | secretNotFound (kid : String)
  /-- Sender and recipient have no key agreement keys on a common curve. -/
  | noCompatibleKeys (reason : String)
  /-- Envelope layers or headers that contradict each other, or a key used outside its
  verification relationship. -/
  | inconsistent (reason : String)
  /-- A DID resolver or secrets store failed for reasons of its own. -/
  | resolver (reason : String)
  deriving DecidableEq, Repr

/-- Result of the DIDComm crate. -/
abbrev Result (α : Type) := Except Error α

/-- `From<serde_json::Error> for Error`: what a JSON failure becomes. -/
def ofJson {α : Type} : Except String α → Result α
  | .ok a => .ok a
  | .error err => .error (.malformed ("JSON: " ++ err))

/-- `Option::ok_or_else`. -/
def okOr {α : Type} (error : Error) : Option α → Result α
  | some a => .ok a
  | none => .error error

/-- A JSON error becomes an error of the crate, and a value stays the value. -/
theorem ofJson_eq_ok {α : Type} {x : Except String α} {a : α} : ofJson x = .ok a ↔ x = .ok a := by
  cases x <;> simp [ofJson]

/-- `ok_or` gives a value exactly where there is one. -/
@[simp] theorem okOr_eq_ok {α : Type} {e : Error} {x : Option α} {a : α} :
    okOr e x = .ok a ↔ x = some a := by
  cases x <;> simp [okOr]

/-- The rule for `?`: a sequence succeeds exactly when its first part does and then the rest. -/
theorem bind_eq_ok {ε α β : Type} {x : Except ε α} {f : α → Except ε β} {b : β} :
    (x >>= f) = .ok b ↔ ∃ a, x = .ok a ∧ f a = .ok b := by
  cases x <;> simp [bind, Except.bind]

/-- A returned value is the value it was returned with. -/
theorem pure_eq_ok {ε α : Type} {a b : α} : (pure a : Except ε α) = .ok b ↔ a = b :=
  Except.ok.injEq a b ▸ Iff.rfl

/-- After a value was computed the rest goes on from it. -/
theorem ok_bind {α β : Type} {a : α} {f : α → Result β} : ((Except.ok a : Result α) >>= f) = f a :=
  rfl

/-- Where the value is there the rest goes on from it. -/
theorem okOr_some_bind {α β : Type} {e : Error} {a : α} {f : α → Result β} :
    (okOr e (some a) >>= f) = f a := rfl

/-- An error skips what follows it. -/
theorem error_bind {ε α β : Type} {e : ε} {f : α → Except ε β} :
    ((Except.error e : Except ε α) >>= f) = .error e := rfl

/-- A guard `if c { return Err(e) }` succeeds exactly when the condition is false. -/
theorem guard_eq_ok {ε α : Type} {c : Prop} [Decidable c] {e : ε} {x : Except ε α} {a : α} :
    (if c then .error e else x) = .ok a ↔ ¬ c ∧ x = .ok a := by
  split <;> simp_all

/-- A list is mapped exactly when each of its elements is. -/
theorem mapM_eq_ok {ε α β : Type} {f : α → Except ε β} {xs : List α} {ys : List β} :
    xs.mapM f = .ok ys ↔ List.Forall₂ (fun x y => f x = .ok y) xs ys := by
  induction xs generalizing ys with
  | nil =>
    rw [List.mapM_nil, pure_eq_ok, List.forall₂_nil_left_iff]
    exact eq_comm
  | cons x xs ih =>
    simp only [List.mapM_cons, bind_eq_ok, pure_eq_ok, ih, List.forall₂_cons_left_iff]
    constructor
    · rintro ⟨y, hy, ys, hys, rfl⟩
      exact ⟨y, ys, hy, hys, rfl⟩
    · rintro ⟨y, ys, hy, hys, rfl⟩
      exact ⟨y, hy, ys, hys, rfl⟩

/-- What a list is mapped to comes from its elements. -/
theorem exists_of_forall₂ {α β : Type} {p : α → β → Prop} {xs : List α} {ys : List β}
    (h : List.Forall₂ p xs ys) {y : β} (hy : y ∈ ys) : ∃ x ∈ xs, p x y := by
  induction h with
  | nil => nomatch hy
  | @cons x y' xs ys hxy _ ih =>
    rcases List.mem_cons.mp hy with rfl | hy
    · exact ⟨x, List.mem_cons_self, hxy⟩
    · obtain ⟨x', hx', h'⟩ := ih hy
      exact ⟨x', List.mem_cons_of_mem x hx', h'⟩

/-! ## Text -/

/-- The UTF-8 bytes of a string (`as_bytes`). -/
def utf8 (text : String) : Bytes := text.toUTF8.data.toList

/-- `String::from_utf8`. -/
def fromUtf8 (bytes : Bytes) : Option String := String.fromUTF8? ⟨bytes.toArray⟩

/-- The bytes of a text are read back as the text. -/
@[simp] theorem fromUtf8_utf8 (text : String) : fromUtf8 (utf8 text) = some text := by
  have h : (⟨(utf8 text).toArray⟩ : ByteArray) = text.toUTF8 := by simp [utf8]
  rw [fromUtf8, h, String.fromUTF8?, String.toUTF8_eq_toByteArray, dif_pos text.isValidUTF8]
  rfl

/-- `str::starts_with`. -/
def startsWith (text start : String) : Bool := start.toList.isPrefixOf text.toList

/-- `str::ends_with`. -/
def endsWith (text tail : String) : Bool := tail.toList.isSuffixOf text.toList

/-- `str::contains` of a character. -/
def containsChar (text : String) (c : Char) : Bool := text.toList.contains c

/-- `b64::encode`: unpadded base64url, the only base64 flavour JOSE uses. -/
def b64Encode (bytes : Bytes) : String := Base64Url.encode bytes

/-- `b64::decode`. -/
def b64Decode (text : String) : Result Bytes :=
  okOr (.malformed "invalid base64url") (Base64Url.decode text)

/-- Decoding undoes the encoding of any bytes. -/
@[simp] theorem b64Decode_b64Encode (bytes : Bytes) : b64Decode (b64Encode bytes) = .ok bytes := by
  simp [b64Decode, b64Encode]

/-! ## DID URLs -/

/-- The characters that end the DID part of a DID URL. -/
def endsDid (c : Char) : Bool := c == '#' || c == '?' || c == '/'

/-- The DID part of a DID URL: everything before `#`, `?` or `/`. -/
def didOf (didUrl : String) : String :=
  String.ofList (didUrl.toList.takeWhile fun c => !endsDid c)

example : didOf "did:example:a?x=1#k" = "did:example:a" := by decide

/-- What `didOf` returns is a DID without fragment, query or path. -/
@[simp] theorem didOf_didOf (didUrl : String) : didOf (didOf didUrl) = didOf didUrl := by
  simp [didOf, List.takeWhile_takeWhile]

end Didcomm
