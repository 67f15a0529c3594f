import AlmenaMediator.Dispatch.Resolution
import AlmenaMediator.Store.Redis.Keys

/-!
# The keys of mediations

Which DIDs may own mediations whose Redis keys are written alike. A DID that certifies itself never
does; a `did:web` with a path may, as anybody may choose the last word of it.
-/

namespace Dispatch

open Didcomm Store.Redis

variable {prim : Primitives} {base58 : Base58} {toMontgomery : Bytes → Bytes} {did : String}
    {doc : DidDocument}

/-- The text after the last colon of a DID is none of those in the keys of a mediation. -/
structure EndsApart (did : String) : Prop where
  split : ∃ front last, did = front ++ ":" ++ last ∧ ':' ∉ last.toList ∧ ∀ field :
    Field, field.words.2 ≠ last

/-- Such a DID is no other one with what follows a DID in a key. -/
theorem EndsApart.ne_append (h : EndsApart did) (did' : String) {field : Field}
    (hfield : field ≠ .grant) : did ≠ did' ++ field.suffix := by
  obtain ⟨front, last, hdid, hcolon, hlast⟩ := h.split
  intro heq
  rw [Field.suffix_eq hfield, hdid, ← String.append_assoc, ← String.append_assoc] at heq
  exact hlast field (append_colon_inj hcolon field.colon_notMem_words heq).2.symm

/-- A text with a dot ends none of the keys. -/
theorem words_ne_of_dot {last : String} (h : '.' ∈ last.toList)
    (field : Field) : field.words.2 ≠ last := by
  rintro rfl
  cases field with
  | body id => exact id.notMem (by decide) (by decide) h
  | _ => revert h; decide

/-- A text of letters and digits that starts with one of these ends none of the keys. -/
theorem words_ne_of_head {c : Char} {rest : List Char} {last : String}
    (hlast : last.toList = c :: rest) (hc : c = 'z' ∨ c = '4')
    (hchars : ∀ c ∈ last.toList, c.isAlphanum) (field : Field) : field.words.2 ≠ last := by
  rintro rfl
  cases field with
  | body id => exact absurd (hchars _ id.dash_mem) (by decide)
  | _ =>
    rcases hc with rfl | rfl <;> simp [Field.words] at hlast

/-- A DID that ends with base58btc text, after a `4` or not. -/
theorem endsApart_of_base58btc [base58.Strict] (front : String) {text : String} {bytes : Bytes}
    {numalgo : List Char} (hnumalgo : numalgo = [] ∨ numalgo = ['4'])
    (htext : Multikey.decodeBase58btc base58 text = .ok bytes) :
    EndsApart (front ++ ":" ++ (String.ofList numalgo ++ text)) := by
  have hchars : ∀ c ∈ (String.ofList numalgo ++ text).toList, c.isAlphanum := by
    intro c hc
    rw [String.toList_append, String.toList_ofList, List.mem_append] at hc
    rcases hc with hc | hc
    · rcases hnumalgo with rfl | rfl
      · cases hc
      · rw [List.mem_singleton.mp hc]
        decide
    · exact Multikey.isAlphanum_of_decodeBase58btc htext c hc
  -- the multibase letter, which begins no word that a key ends in
  have hstart : ∃ rest, text.toList = 'z' :: rest := by
    obtain ⟨body, hbody, -⟩ := bind_eq_ok.mp htext
    exact ⟨body.toList, by rw [stripPrefix_eq_some.mp (okOr_eq_ok.mp hbody)]; simp⟩
  obtain ⟨rest, hrest⟩ := hstart
  refine ⟨front, _, rfl, colon_notMem_of_isAlphanum hchars, ?_⟩
  rcases hnumalgo with rfl | rfl
  · exact @words_ne_of_head 'z' rest _ (by simpa using hrest) (.inl rfl) hchars
  · exact @words_ne_of_head '4' text.toList _ (by simp) (.inr rfl) hchars

/-- The DIDs that certify themselves. -/
theorem SelfCertified.endsApart [base58.Strict]
    (h : SelfCertified prim base58 toMontgomery did doc) : EndsApart did := by
  cases h with
  | key h =>
    obtain ⟨encoded, hencoded, h⟩ := bind_eq_ok.mp h
    obtain ⟨key, hkey, -⟩ := bind_eq_ok.mp h
    obtain ⟨bytes, hbytes, -⟩ := bind_eq_ok.mp hkey
    have hends := endsApart_of_base58btc "did:key" (.inl rfl) hbytes
    rw [stripPrefix_eq_some.mp (okOr_eq_ok.mp hencoded)]
    simpa using hends
  | peer2 h =>
    obtain ⟨rest, -, rfl, hchars, -⟩ := sound_of_resolvePeer2 h
    refine ⟨"did:peer", "2." ++ rest, ?_, ?_, words_ne_of_dot (by simp)⟩
    · rw [← String.append_assoc]
      rfl
    · rw [String.toList_append, List.mem_append, not_or]
      exact ⟨by decide, fun hmem => (hchars _ hmem).2 rfl⟩
  | peer4 long hlong h =>
    obtain ⟨encoded, obj, rfl, hencodes, -⟩ := resolvePeer4_eq_ok.mp h
    -- a long form ends in the encoded document, a short form in its hash
    rcases hlong with rfl | hshort
    · obtain ⟨bytes, -, hbytes, -⟩ := hencodes
      have hends := endsApart_of_base58btc (shortOf prim base58 encoded) (.inl rfl) hbytes
      simpa [longOf] using hends
    · rw [peer4Short_longOf hencodes.colon_notMem] at hshort
      obtain rfl := Except.ok.inj hshort
      have hends := endsApart_of_base58btc "did:peer" (.inr rfl)
        (@decode_peer4Hash prim base58 _ encoded)
      rwa [← String.append_assoc] at hends

/-- Mediations whose DIDs certify themselves share no key: as long as no other ones are granted, no
two keys of the store are written alike, whatever DIDs the recipients, devices and pushes are of. -/
theorem self_certified_keys_apart [base58.Strict] {dids : Set String}
    (hdids : ∀ did ∈ dids, ∃ doc, SelfCertified prim base58 toMontgomery did doc) :
    Set.InjOn Key.text {key | ∀ did, key = .mediation did .grant → did ∈ dids} := by
  refine Key.text_injOn fun did hdid did' field hfield => ?_
  obtain ⟨doc, hdoc⟩ := hdids did hdid
  exact hdoc.endsApart.ne_append did' hfield

/-- The grants of two did:key mediations are stored under two keys. -/
theorem self_certified_keys_apart_ed25519 :
    Set.InjOn Key.text {key | ∀ did, key = .mediation did .grant →
      did ∈ ({didKey bs58 Loopback.signingKey,
        didKey bs58 Loopback.agreementKey} : Set String)} := by
  have hcertified : ∀ key : PublicKey, Transparent.packages.decodePoint key.curve
    key.bytes = some key.bytes →
      ∃ doc, SelfCertified Transparent.packages bs58 id (didKey bs58 key) doc :=
    fun key hkey => ⟨_, .key (resolveKey_didKey bs58_lawful.decode_encode hkey)⟩
  refine @self_certified_keys_apart Transparent.packages bs58 id _ _ ?_
  rintro did (rfl | rfl)
  · exact hcertified _ rfl
  · exact hcertified _ rfl

end Dispatch
