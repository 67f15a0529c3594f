import AlmenaMediator.Didcomm.Lengths
import AlmenaMediator.Didcomm.Onion
import Mathlib.Tactic.GCongr
import Mathlib.Tactic.Linarith
import Mathlib.Tactic.Ring

/-!
# How long routed messages get

Each hop of a route wraps what the next hops get in JSON, encryption and base64url, which makes it
longer by a third at least. A message so grows exponentially with its hops, while a document names
one more hop in as many bytes as the one before.

## Main results

* `wrapForHop_grows`, `wrapForHops_grows`: what each hop adds;
* `not_linear`: no constant bounds a message by the length of what routing is given.
-/

namespace Didcomm

variable {prim : Primitives} {resolver : Resolver} {supply : Supply} {enc : ContentEncryption}

/-- Routing makes a message at most `bound` times as long as what it is given. -/
def RoutesWithin (prim : Primitives) (bound : ℕ) : Prop :=
  ∀ (resolver : Resolver) (supply : Supply) (enc : ContentEncryption) (payload to_ : String)
    (routed : Routed), supply.Sound → route prim resolver supply payload to_ enc = .ok routed →
      routed.message.utf8ByteSize ≤ bound * givenLength prim resolver payload to_

/-! ## Growth -/

/-- What the packages write is no shorter than what it holds, and an envelope keeps its length when
it is read and written again. -/
structure Primitives.Verbatim (prim : Primitives) : Prop where
  ciphertext : ∀ jwe : Jwe, jwe.ciphertext.utf8ByteSize ≤ (jwe.toJson prim).utf8ByteSize
  rewritten : ∀ (jwe : Jwe) v, prim.value.fromStr (jwe.toJson prim) = .ok v →
    (jwe.toJson prim).utf8ByteSize ≤ (prim.value.toText v).utf8ByteSize
  forward : ∀ supply i hop next v, (prim.value.toText v).utf8ByteSize ≤
    ((forwardMessage supply i hop next v).toPlaintextJson prim).utf8ByteSize
  cipher : ∀ {enc key iv aad plaintext ciphertext tag},
    prim.cipherEncrypt enc key iv aad plaintext = .ok (ciphertext, tag) →
    plaintext.length ≤ ciphertext.length

/-- What a wrapping holds. -/
theorem wrapForHop_eq_ok {i : ℕ} {hop next inner text : String}
    (h : wrapForHop prim resolver supply enc i hop next inner = .ok text) :
    ∃ v doc keys jwe, prim.value.fromStr inner = .ok v ∧ resolver (didOf hop) = .ok doc ∧
      keyAgreementKeys doc hop = .ok keys ∧
      Jwe.anoncrypt prim (supply.draw i)
        (utf8 ((forwardMessage supply i hop next v).toPlaintextJson prim)) (onFirstCurve keys) enc =
        .ok jwe ∧ text = jwe.toJson prim := by
  obtain ⟨v, hv, h⟩ := bind_eq_ok.mp h
  obtain ⟨doc, hdoc, h⟩ := bind_eq_ok.mp h
  obtain ⟨keys, hkeys, h⟩ := bind_eq_ok.mp h
  obtain ⟨jwe, hjwe, h⟩ := bind_eq_ok.mp h
  exact ⟨v, doc, keys, jwe, ofJson_eq_ok.mp hv, hdoc, hkeys, hjwe, (pure_eq_ok.mp h).symm⟩

/-- An envelope is a third longer than what is encrypted. -/
theorem anoncrypt_grows (hverbatim : prim.Verbatim) {random : Random} {plaintext : Bytes}
    {recipients : List Recipient} {jwe : Jwe}
    (h : Jwe.anoncrypt prim random plaintext recipients enc = .ok jwe) :
    4 * plaintext.length ≤ 3 * (jwe.toJson prim).utf8ByteSize := by
  obtain ⟨draw, ephemeral, ciphertext, tag, hsealed⟩ := Jwe.encrypt_eq_ok h
  obtain ⟨⟨⟩, -, hcipher⟩ := bind_eq_ok.mp hsealed.encrypted
  have hciphertext := hverbatim.cipher hcipher
  have hencoded := length_le_utf8ByteSize_b64Encode ciphertext
  have hwritten := hverbatim.ciphertext jwe
  rw [hsealed.ciphertext] at hwritten
  omega

/-- Wrapping a message that is written as it would be written again makes it a third longer. -/
theorem wrapForHop_grows (hverbatim : prim.Verbatim) {i : ℕ} {hop next inner text : String}
    (h : wrapForHop prim resolver supply enc i hop next inner = .ok text)
    (hinner : ∀ v, prim.value.fromStr inner = .ok v →
      inner.utf8ByteSize ≤ (prim.value.toText v).utf8ByteSize) :
    4 * inner.utf8ByteSize ≤ 3 * text.utf8ByteSize := by
  obtain ⟨v, doc, keys, jwe, hread, -, -, hjwe, rfl⟩ := wrapForHop_eq_ok h
  have hgrows := anoncrypt_grows hverbatim hjwe
  have hforward := hverbatim.forward supply i hop next v
  have hrewritten := hinner v hread
  rw [length_utf8] at hgrows
  omega

/-- Each hop makes a message a third longer. -/
theorem wrapForHops_grows (hverbatim : prim.Verbatim) {recipient packed text : String}
    {hops : List String} (h : wrapForHops prim resolver supply enc recipient hops packed = .ok text)
    (hpacked : ∀ v, prim.value.fromStr packed = .ok v →
      packed.utf8ByteSize ≤ (prim.value.toText v).utf8ByteSize) :
    4 ^ hops.length * packed.utf8ByteSize ≤ 3 ^ hops.length * text.utf8ByteSize ∧
      ∀ v, prim.value.fromStr text = .ok v →
        text.utf8ByteSize ≤ (prim.value.toText v).utf8ByteSize := by
  -- the outermost layer grows the text by a third at least, whatever is inside
  induction hops generalizing text with
  | nil =>
    obtain rfl := Except.ok.inj h
    exact ⟨le_rfl, hpacked⟩
  | cons hop hops ih =>
    obtain ⟨inner, hinner, hwrap⟩ := bind_eq_ok.mp h
    obtain ⟨hgrown, hcanonical⟩ := ih hinner
    have hstep := wrapForHop_grows hverbatim hwrap hcanonical
    obtain ⟨v, doc, keys, jwe, -, -, -, -, rfl⟩ := wrapForHop_eq_ok hwrap
    refine ⟨?_, hverbatim.rewritten jwe⟩
    calc 4 ^ (hops.length + 1) * packed.utf8ByteSize
        = 4 * (4 ^ hops.length * packed.utf8ByteSize) := by ring
      _ ≤ 4 * (3 ^ hops.length * inner.utf8ByteSize) := by gcongr
      _ = 3 ^ hops.length * (4 * inner.utf8ByteSize) := by ring
      _ ≤ 3 ^ hops.length * (3 * (jwe.toJson prim).utf8ByteSize) := by gcongr
      _ = 3 ^ (hops.length + 1) * (jwe.toJson prim).utf8ByteSize := by ring

/-! ## No linear bound -/

/-- A power that grows by a third outgrows what grows by as much each time. -/
theorem exists_pow_lt (a b : ℕ) : ∃ n, 3 ^ n * (a + b * n) < 4 ^ n := by
  -- six steps are enough to quadruple, and twice the doublings of `k` make more than `k * k`
  let k := a + 6 * b
  have hk : k + 1 ≤ 2 ^ k := Nat.lt_two_pow_self
  have hquadratic : a + b * (6 * k) < (k + 1) * (k + 1) := by
    have hproduct : 6 * b * k ≤ k * k := Nat.mul_le_mul_right k (by omega)
    have ha : a ≤ k := by omega
    linarith [hproduct, ha]
  have hdoubled : (k + 1) * (k + 1) ≤ 4 ^ k := by
    calc (k + 1) * (k + 1) ≤ 2 ^ k * 2 ^ k := Nat.mul_le_mul hk hk
      _ = 4 ^ k := (mul_pow 2 2 k).symm
  refine ⟨6 * k, ?_⟩
  calc 3 ^ (6 * k) * (a + b * (6 * k)) < 3 ^ (6 * k) * 4 ^ k :=
        Nat.mul_lt_mul_of_pos_left (by omega) (by positivity)
    _ = 2916 ^ k := by rw [pow_mul, ← mul_pow]; norm_num
    _ ≤ 4096 ^ k := Nat.pow_le_pow_left (by omega) k
    _ = 4 ^ (6 * k) := by rw [pow_mul]; norm_num

namespace Transparent

/-- A written text has the characters of the text in it. -/
theorem sublist_writeChars (cs : List Char) : cs.Sublist (writeChars cs) := by
  induction cs with
  | nil => exact List.nil_sublist _
  | cons c cs ih => exact (ih.cons_cons c).cons '1'

/-- A written object has each of its written values in it. -/
theorem sublist_writeMembers {name : String} {v : Value} {members : List (String × Value)}
    (hmem : (name, v) ∈ members) : (write v).Sublist (writeMembers members) := by
  obtain ⟨before, after, rfl⟩ := List.append_of_mem hmem
  induction before with
  | nil =>
    refine .cons _ ?_
    exact (List.sublist_append_left _ _).trans (List.sublist_append_right _ _)
  | cons m before ih =>
    refine .cons _ ?_
    exact (ih List.mem_append_cons_self).trans
      ((List.sublist_append_right _ _).trans (List.sublist_append_right _ _))

/-- A written list has each of its written items in it. -/
theorem sublist_writeItems {v : Value} {items : List Value} (hmem : v ∈ items) :
    (write v).Sublist (writeItems items) := by
  obtain ⟨before, after, rfl⟩ := List.append_of_mem hmem
  induction before with
  | nil => exact .cons _ (List.sublist_append_left _ _)
  | cons w before ih =>
    exact .cons _ ((ih List.mem_append_cons_self).trans (List.sublist_append_right _ _))

/-- The transparent packages copy the ciphertext of an envelope into its text and the JSON of an
attachment too. -/
theorem verbatim : packages.Verbatim where
  ciphertext jwe := by
    have hmember : (write (.string jwe.ciphertext)).Sublist (write (ofJwe jwe)) :=
      (@sublist_writeMembers "ciphertext" _ _ (by simp)).cons _
    have hchars : jwe.ciphertext.toList.Sublist (write (ofJwe jwe)) :=
      ((sublist_writeChars _).cons _).trans hmember
    have hle := utf8ByteSize_le_of_sublist hchars
    rwa [String.ofList_toList] at hle
  rewritten jwe v hread := by
    obtain rfl := Except.ok.inj ((keeps (ofJwe jwe)).symm.trans hread)
    exact le_rfl
  -- the forwarded value stands in the attachment, and the attachment in the message
  forward supply i hop next v := by
    let a := (Attachment.ofJson v).withMediaType encryptedTyp
    let m : Message := { forwardMessage supply i hop next v with typ := some plaintextTyp }
    have hlast : v ∈ [.null, .null, .null, .ofOption (some encryptedTyp),
      .null, .null, .null, .null, .null, .null, .null, v] := by simp
    have hattached : (write v).Sublist (write (ofAttachment a)) := (sublist_writeItems hlast).cons _
    have hlisted : (write (ofAttachment a)).Sublist (write (ofAttachments (some [a]))) :=
      (sublist_writeItems List.mem_cons_self).cons _
    have hattachments : ("attachments", ofAttachments (some [a])) ∈ messageMembers m := by
      simp [messageMembers, m, a, forwardMessage, Message.attachment, Message.withTo, Message.new]
    have hmember := (sublist_writeMembers hattachments).cons 'o'
    exact utf8ByteSize_le_of_sublist ((hattached.trans hlisted).trans hmember)
  cipher h := by
    obtain ⟨rfl, -⟩ := Prod.mk.inj (Except.ok.inj h)
    exact le_rfl

/-- The recipient asks for `n` times the same relay. -/
def relayed (n : ℕ) (did : String) : List Service :=
  if did = "did:example:bob" then
    [Loopback.didcommService "https://bob.example" (List.replicate n "did:example:relay")]
  else []

/-- The relay of the example is ready as a hop. -/
theorem hopReady_relay (n : ℕ) : HopReady packages (Loopback.resolver (relayed n)) Loopback.supply
    .xc20p "did:example:relay" := by
  refine ⟨by decide, _, _, rfl, rfl, ?_, fun i plaintext => anoncrypt_isOk i plaintext _ _⟩
  intro r hr
  obtain rfl := List.mem_singleton.mp hr
  decide

/-- A list of texts is read from its JSON. -/
theorem stringsOfValue_map (items : List String) :
    stringsOfValue (.array (items.map .string)) = .ok items := by
  refine mapM_eq_ok.mpr (List.forall₂_map_left_iff.mpr ?_)
  exact List.forall₂_same.mpr fun s _ => rfl

/-- The first endpoint of bob in the example has the relay as its routing keys, `n` times. -/
theorem firstEndpoint_relayed (n : ℕ) :
    FirstEndpoint (Loopback.document (relayed n "did:example:bob") "did:example:bob")
      ⟨"https://bob.example", [], List.replicate n "did:example:relay"⟩ := by
  refine ⟨.inl rfl, [], _, [], rfl, nofun, [], [], ?_, nofun⟩
  have hkeys := stringsOfValue_map (List.replicate n "did:example:relay")
  have hread : DidCommEndpoint.ofValue (.object [("uri", .string "https://bob.example"),
      ("routingKeys", .array ((List.replicate n "did:example:relay").map .string))]) =
      .ok ⟨"https://bob.example", [], List.replicate n "did:example:relay"⟩ :=
    bind_eq_ok.mpr ⟨_, rfl, bind_eq_ok.mpr ⟨[], rfl, bind_eq_ok.mpr ⟨_, hkeys, rfl⟩⟩⟩
  exact bind_eq_ok.mpr ⟨_, ofJson_eq_ok.mpr hread, rfl⟩

/-- The planned route to bob in the example leads over the relay `n` times. -/
theorem routePlan_relayed (n : ℕ) : routePlan (Loopback.resolver (relayed n)) "did:example:bob" =
    .ok (some ⟨"https://bob.example", List.replicate n "did:example:relay"⟩) := by
  have huri : startsWith "https://bob.example" "did:" = false := by decide
  exact routePlan_eq (@Destination.direct (Loopback.resolver (relayed n)) "did:example:bob" _ _ rfl
    (firstEndpoint_relayed n) huri)

/-- Routing to bob in the example resolves bob and the relay `n` times. -/
theorem resolvedDids_relayed (n : ℕ) :
    resolvedDids (Loopback.resolver (relayed n)) "did:example:bob" =
      "did:example:bob" :: List.replicate n "did:example:relay" := by
  have hfirst : (Loopback.resolver (relayed n) (didOf "did:example:bob")).bind
    firstDidcommEndpoint =
      .ok (some ⟨"https://bob.example", [], List.replicate n "did:example:relay"⟩) :=
    firstDidcommEndpoint_eq (firstEndpoint_relayed n)
  have huri : startsWith "https://bob.example" "did:" = false := by decide
  have hbob : didOf "did:example:bob" = "did:example:bob" := by decide
  have hrelay : didOf "did:example:relay" = "did:example:relay" := by decide
  rw [resolvedDids, hfirst, routePlan_relayed]
  simp only [huri, List.map_replicate, hbob, hrelay, Bool.false_eq_true,
    ↓reduceIte, List.cons_append, List.nil_append]

/-- A list of `n` copies of a text has `n` times the size of a copy. -/
theorem itemsSize_replicate (n : ℕ) (s : String) :
    Value.itemsSize ((List.replicate n s).map .string) = (3 + s.utf8ByteSize) * n := by
  induction n with
  | zero => rfl
  | succ n ih =>
    simp only [List.replicate_succ, List.map_cons, Value.itemsSize, Value.size, ih]
    ring

/-- A document names each further relay in as many bytes. -/
theorem documentLength_relayed (n : ℕ) :
    documentLength packages (Loopback.resolver (relayed n)) "did:example:bob" =
      documentLength packages (Loopback.resolver (relayed 0)) "did:example:bob" +
        (3 + "did:example:relay".utf8ByteSize) * n := by
  simp only [documentLength, Loopback.resolver, Loopback.document, relayed, ↓reduceIte,
    DidDocument.toJson, DidDocument.unlessEmpty, Loopback.didcommService,
      List.map_cons, List.map_nil, List.cons_ne_nil, List.cons_append, List.nil_append, Value.size,
    Value.membersSize, Value.itemsSize, itemsSize_replicate]
  omega

/-- The supply of the example draws ids that are valid. -/
theorem sound_supply : Loopback.supply.Sound :=
  ⟨fun _ => by simp [Loopback.supply], fun _ => by simp [Loopback.supply]⟩

/-- Every length of route is wrapped. -/
theorem route_relayed (n : ℕ) : ∃ text,
    wrapForHops packages (Loopback.resolver (relayed n)) Loopback.supply .xc20p "did:example:bob"
      (List.replicate n "did:example:relay") (packages.value.toText (.object [])) = .ok text ∧
    route packages (Loopback.resolver (relayed n)) Loopback.supply
      (packages.value.toText (.object [])) "did:example:bob" .xc20p =
      .ok ⟨text, some "https://bob.example", (List.replicate n "did:example:relay").head?⟩ := by
  have hready : ∀ hop ∈ List.replicate n "did:example:relay",
      HopReady packages (Loopback.resolver (relayed n)) Loopback.supply .xc20p hop := by
    intro hop hhop
    obtain rfl := List.eq_of_mem_replicate hhop
    exact hopReady_relay n
  obtain ⟨text, members, hwrapped, -⟩ := wrapForHops_opens lawful sound_supply
    "did:example:bob" (keeps (.object [])) hready
  exact ⟨text, hwrapped, bind_eq_ok.mpr ⟨_, routePlan_relayed n,
    bind_eq_ok.mpr ⟨text, hwrapped, rfl⟩⟩⟩

end Transparent

/-- No constant bounds what routing makes of a message by the length of what it is given. -/
theorem not_linear : ¬ ∃ bound, RoutesWithin Transparent.packages bound := by
  rintro ⟨bound, hwithin⟩
  let packed := Transparent.packages.value.toText (.object [])
  let docs := fun n => Loopback.resolver (Transparent.relayed n)
  let bob := documentLength Transparent.packages (docs 0) "did:example:bob"
  let relay := documentLength Transparent.packages (docs 0) "did:example:relay"
  obtain ⟨n, hn⟩ := exists_pow_lt (bound * (packed.utf8ByteSize + 15 + bob)) (bound * (20 + relay))
  obtain ⟨text, hwrapped, hroute⟩ := Transparent.route_relayed n
  have hbound := hwithin _ _ _ _ _ _ Transparent.sound_supply hroute
  -- what is given grows by one document and one hop a layer, so linearly
  have hgiven : givenLength Transparent.packages (docs n) packed "did:example:bob" =
      packed.utf8ByteSize + 15 + bob + (20 + relay) * n := by
    have hbob := Transparent.documentLength_relayed n
    have hrelay : documentLength Transparent.packages (docs n) "did:example:relay" = relay := rfl
    have hname : "did:example:bob".utf8ByteSize = 15 := by decide
    have hhop : "did:example:relay".utf8ByteSize = 17 := by decide
    simp only [givenLength, docs, Transparent.resolvedDids_relayed,
      List.map_cons, List.map_replicate, List.sum_cons, List.sum_replicate_nat, hname, hbob, hhop]
    rw [hrelay]
    ring
  -- what is written grows by a third a layer
  have hgrown : 4 ^ n * packed.utf8ByteSize ≤ 3 ^ n * text.utf8ByteSize := by
    have hverbatim := Transparent.verbatim
    have hgrows := wrapForHops_grows hverbatim hwrapped fun v hread => by
      obtain rfl := Except.ok.inj ((Transparent.keeps (.object [])).symm.trans hread)
      exact le_rfl
    simpa using hgrows.1
  have hpacked : 1 ≤ packed.utf8ByteSize := by decide
  have hlong : 4 ^ n ≤
      3 ^ n * (bound * (packed.utf8ByteSize + 15 + bob) + bound * (20 + relay) * n) := by
    calc 4 ^ n ≤ 4 ^ n * packed.utf8ByteSize := Nat.le_mul_of_pos_right _ hpacked
      _ ≤ 3 ^ n * text.utf8ByteSize := hgrown
      _ ≤ 3 ^ n * (bound * (packed.utf8ByteSize + 15 + bob + (20 + relay) * n)) := by
        rw [hgiven] at hbound
        gcongr
      _ = 3 ^ n * (bound * (packed.utf8ByteSize + 15 + bob) + bound * (20 + relay) * n) := by ring
  exact absurd hn (Nat.not_lt.mpr hlong)

end Didcomm
