import AlmenaMediator.Didcomm.Did.Reading
import AlmenaMediator.Didcomm.Pack
import Mathlib.Algebra.Order.BigOperators.Group.List

/-!
# Lengths of texts and documents

Lengths are in bytes, and a DID document's is that of its JSON. What routing takes from a document,
the keys of a hop and the hops of a route, is part of this length.

## Main results

* `utf8ByteSize_b64Encode_le`, `length_le_utf8ByteSize_b64Encode`: how much longer base64url is;
* `keyAgreement_le`: the key agreement ids of a document are written in it.
-/

namespace Didcomm

variable {prim : Primitives} {resolver : Resolver}

/-! ## Text -/

/-- A text has as many bytes as its size in UTF-8 says. -/
theorem length_utf8 (text : String) : (utf8 text).length = text.utf8ByteSize :=
  Array.length_toList

/-- The size of a text is the sum of the sizes of its characters. -/
theorem utf8ByteSize_ofList (cs : List Char) :
    (String.ofList cs).utf8ByteSize = (cs.map Char.utf8Size).sum := by
  induction cs with
  | nil => rfl
  | cons c cs ih =>
    have hsplit : String.ofList (c :: cs) = String.singleton c ++ String.ofList cs := by
      apply String.toList_inj.mp
      simp
    rw [hsplit, String.utf8ByteSize_append, String.utf8ByteSize_singleton, ih, List.map_cons,
      List.sum_cons]

/-- A text is no shorter than what is left of it when characters are crossed out. -/
theorem utf8ByteSize_le_of_sublist {cs cs' : List Char} (h : cs.Sublist cs') :
    (String.ofList cs).utf8ByteSize ≤ (String.ofList cs').utf8ByteSize := by
  rw [utf8ByteSize_ofList, utf8ByteSize_ofList]
  exact (h.map Char.utf8Size).sum_le_sum fun _ _ => Nat.zero_le _

/-- The DID of a DID URL is no longer than the URL. -/
theorem utf8ByteSize_didOf_le (didUrl : String) :
    (didOf didUrl).utf8ByteSize ≤ didUrl.utf8ByteSize := by
  have hle := utf8ByteSize_le_of_sublist
    (List.takeWhile_sublist (fun c => !endsDid c) (l := didUrl.toList))
  rwa [String.ofList_toList] at hle

/-- The encoded text has one byte for each of its characters. -/
theorem utf8ByteSize_b64Encode (bytes : Bytes) :
    (b64Encode bytes).utf8ByteSize = (Base64Url.encodeChars bytes).length := by
  rw [b64Encode, Base64Url.encode, utf8ByteSize_ofList]
  have hone : ∀ c ∈ Base64Url.encodeChars bytes, c.utf8Size = 1 := by
    intro c hc
    obtain ⟨n, hn⟩ := Base64Url.ofChar_of_mem_encodeChars hc
    exact Base64Url.utf8Size_of_ofChar hn
  rw [List.map_congr_left hone]
  simp

/-- What base64url makes of bytes is a third longer, and not twice as long. -/
theorem length_le_utf8ByteSize_b64Encode (bytes : Bytes) :
    4 * bytes.length ≤ 3 * (b64Encode bytes).utf8ByteSize := by
  rw [utf8ByteSize_b64Encode]
  exact Base64Url.length_le_length_encodeChars bytes

/-- Encoding at most doubles the length. -/
theorem utf8ByteSize_b64Encode_le (bytes : Bytes) :
    (b64Encode bytes).utf8ByteSize ≤ 2 * bytes.length := by
  rw [utf8ByteSize_b64Encode]
  exact Base64Url.length_encodeChars_le bytes

/-! ## JSON -/

namespace Value

mutual

/-- The length of a value as JSON without spaces or escapes. -/
def size : Value → ℕ
  | .null => 4
  | .bool b => if b then 4 else 5
  | .number (.unsigned n) => (toString n).utf8ByteSize
  | .number (.negative n) => 1 + (toString n).utf8ByteSize
  | .number (.float token) => token.utf8ByteSize
  | .string s => 2 + s.utf8ByteSize
  | .array items => 2 + itemsSize items
  | .object members => 2 + membersSize members

/-- Items, each with what separates it from the next. -/
def itemsSize : List Value → ℕ
  | [] => 0
  | v :: vs => 1 + size v + itemsSize vs

/-- Members, with their names. -/
def membersSize : List (String × Value) → ℕ
  | [] => 0
  | (name, v) :: members => 4 + name.utf8ByteSize + size v + membersSize members

end

/-- The sizes of two lists of items add up. -/
theorem itemsSize_append (items items' : List Value) :
    itemsSize (items ++ items') = itemsSize items + itemsSize items' := by
  induction items with
  | nil => simp [itemsSize]
  | cons v vs ih => simp only [List.cons_append, itemsSize, ih, Nat.add_assoc]

/-- The sizes of two lists of members add up. -/
theorem membersSize_append (members members' : List (String × Value)) :
    membersSize (members ++ members') = membersSize members + membersSize members' := by
  induction members with
  | nil => simp [membersSize]
  | cons m ms ih => simp only [List.cons_append, membersSize, ih, Nat.add_assoc]

/-- No item is larger than the list it stands in. -/
theorem size_le_itemsSize {v : Value} {items : List Value} (hmem : v ∈ items) :
    v.size ≤ itemsSize items := by
  obtain ⟨before, after, rfl⟩ := List.append_of_mem hmem
  simp only [itemsSize_append, itemsSize]
  omega

/-- No member's value is larger than the object it stands in. -/
theorem size_le_membersSize {name : String} {v : Value} {members : List (String × Value)}
    (hmem : (name, v) ∈ members) : v.size ≤ membersSize members := by
  obtain ⟨before, after, rfl⟩ := List.append_of_mem hmem
  simp only [membersSize_append, membersSize]
  omega

/-- No value that is looked up is larger than the object it was found in. -/
theorem size_lookup_le {name : String} {v : Value} {members : List (String × Value)}
    (h : lookup name members = some v) : v.size ≤ membersSize members := by
  obtain ⟨m, hfind, rfl⟩ := Option.map_eq_some_iff.mp h
  exact size_le_membersSize (List.mem_of_find?_eq_some hfind)

end Value

/-! ## Documents -/

/-- No text read from a list is longer than the list. -/
theorem length_le_of_stringsOfValue {v : Value} {items : List String}
    (h : stringsOfValue v = .ok items) : ∀ s ∈ items, s.utf8ByteSize ≤ v.size := by
  intro s hs
  match v with
  | .array values =>
    obtain ⟨value, hvalue, hread⟩ := exists_of_forall₂ (mapM_eq_ok.mp h) hs
    have hsize := Value.size_le_itemsSize hvalue
    have hstring : value = .string s := by
      match value with
      | .string s' => exact congrArg Value.string (Except.ok.inj hread)
      | .null | .bool _ | .number _ | .array _ | .object _ => nomatch hread
    subst hstring
    simp only [Value.size] at hsize ⊢
    omega
  | .null | .bool _ | .number _ | .string _ | .object _ => nomatch h

/-- No text read from a member is longer than the object. -/
theorem length_le_of_stringsOrDefault {name : String} {members : List (String × Value)}
    {items : List String} (h : stringsOrDefault (Value.lookup name members) = .ok items) :
    ∀ s ∈ items, s.utf8ByteSize ≤ Value.membersSize members := by
  cases hlookup : Value.lookup name members with
  | some v =>
    rw [hlookup] at h
    exact fun s hs => (length_le_of_stringsOfValue h s hs).trans (Value.size_lookup_le hlookup)
  | none =>
    rw [hlookup] at h
    obtain rfl := Except.ok.inj h
    exact fun s hs => absurd hs List.not_mem_nil

/-- The routing keys of an endpoint are in its JSON. -/
theorem length_le_of_ofValue {v : Value} {endpoint : DidCommEndpoint}
    (h : DidCommEndpoint.ofValue v = .ok endpoint) :
    ∀ key ∈ endpoint.routingKeys, key.utf8ByteSize ≤ v.size := by
  intro key hkey
  -- an object with named members, or an array of up to three items
  unfold DidCommEndpoint.ofValue at h
  split at h
  · next members =>
    split at h
    · obtain ⟨uri, -, h⟩ := bind_eq_ok.mp h
      obtain ⟨accept, -, h⟩ := bind_eq_ok.mp h
      obtain ⟨routingKeys, hread, h⟩ := bind_eq_ok.mp h
      obtain rfl := pure_eq_ok.mp h
      have hle := length_le_of_stringsOrDefault hread key hkey
      simp only [Value.size]
      omega
    · nomatch h
    · nomatch h
  · next uri rest =>
    split at h
    · obtain rfl := pure_eq_ok.mp h
      exact absurd hkey List.not_mem_nil
    · obtain ⟨accept, -, h⟩ := bind_eq_ok.mp h
      obtain rfl := pure_eq_ok.mp h
      exact absurd hkey List.not_mem_nil
    · next accept value =>
      obtain ⟨_, -, h⟩ := bind_eq_ok.mp h
      obtain ⟨routingKeys, hread, h⟩ := bind_eq_ok.mp h
      obtain rfl := pure_eq_ok.mp h
      have hle := length_le_of_stringsOfValue hread key hkey
      simp only [Value.size, Value.itemsSize]
      omega
    · nomatch h
  · nomatch h

/-- The routing keys of a service are in its endpoint. -/
theorem length_le_of_didcommEndpoints {service : Service} {endpoints : List DidCommEndpoint}
    (h : service.didcommEndpoints = .ok endpoints) :
    ∀ e ∈ endpoints, ∀ key ∈ e.routingKeys, key.utf8ByteSize ≤ service.endpoint.size := by
  intro e he key hkey
  unfold Service.didcommEndpoints at h
  split_ifs at h
  · obtain rfl := Except.ok.inj h
    exact absurd he List.not_mem_nil
  · split at h
    · next items hitems =>
      obtain ⟨v, hv, hread⟩ := exists_of_forall₂ (mapM_eq_ok.mp h) he
      have hle := length_le_of_ofValue (ofJson_eq_ok.mp hread) key hkey
      have hsize := Value.size_le_itemsSize hv
      simp only [hitems, Value.size]
      omega
    · next members hmembers =>
      obtain ⟨endpoint, hread, h⟩ := bind_eq_ok.mp h
      obtain rfl := pure_eq_ok.mp h
      obtain rfl := List.mem_singleton.mp he
      exact hmembers ▸ length_le_of_ofValue (ofJson_eq_ok.mp hread) key hkey
    · nomatch h

/-- The first endpoint is one of the endpoints of one of the services. -/
theorem mem_of_firstEndpointOf {services : List Service} {endpoint : DidCommEndpoint}
    (h : firstEndpointOf services = .ok (some endpoint)) :
    ∃ s ∈ services, ∃ endpoints, s.didcommEndpoints = .ok endpoints ∧ endpoint ∈ endpoints := by
  induction services with
  | nil => nomatch h
  | cons s services ih =>
    obtain ⟨endpoints, hread, h⟩ := bind_eq_ok.mp h
    split at h
    · next e hfind =>
      obtain rfl := Option.some.inj (pure_eq_ok.mp h)
      exact ⟨s, List.mem_cons_self, endpoints, hread, List.mem_of_find?_eq_some hfind⟩
    · obtain ⟨s', hs', hfound⟩ := ih h
      exact ⟨s', List.mem_cons_of_mem s hs', hfound⟩

namespace DidDocument

variable (prim) in
/-- A member of a document's JSON is part of its length. -/
theorem size_le_of_mem {doc : DidDocument} {name : String} {v : Value}
    (hmem : (name, v) ∈ ((doc.toJson prim).asObject.getD [])) :
    v.size ≤ (doc.toJson prim).size := by
  have hsize := Value.size_le_membersSize hmem
  simp only [toJson, Value.asObject, Option.getD_some, Value.size] at hsize ⊢
  omega

/-- A list that has an item is not left out. -/
theorem mem_unlessEmpty {name : String} {items : List Value} {v : Value} (hv : v ∈ items) :
    (name, .array items) ∈ unlessEmpty name items := by
  rw [unlessEmpty, if_neg (List.ne_nil_of_mem hv)]
  exact List.mem_singleton_self _

/-- The id of a document is no longer than the document. -/
theorem id_le (doc : DidDocument) : doc.id.utf8ByteSize ≤ (doc.toJson prim).size := by
  have hsize := @size_le_of_mem prim doc "id" (.string doc.id) (by simp [toJson, Value.asObject])
  simp only [Value.size] at hsize
  omega

/-- The endpoint of a service is no larger than the document that lists the service. -/
theorem service_le {doc : DidDocument} {s : Service} (hs : s ∈ doc.service) :
    s.endpoint.size ≤ (doc.toJson prim).size := by
  let written := fun s : Service => Value.object
    [("id", .string s.id), ("type", .string s.kind), ("serviceEndpoint", s.endpoint)]
  have hmem : written s ∈ doc.service.map written := List.mem_map_of_mem hs
  have hlisted := @size_le_of_mem prim doc "service" (.array (doc.service.map written)) (by
    refine List.mem_append_right _ ?_
    exact mem_unlessEmpty hmem)
  have hentry := Value.size_le_itemsSize hmem
  simp only [written, Value.size, Value.membersSize] at hlisted hentry
  omega

/-- The ids of the key agreement keys, each with a byte more. -/
theorem keyAgreement_le (doc : DidDocument) :
    (doc.keyAgreement.map fun id => 1 + id.utf8ByteSize).sum ≤ (doc.toJson prim).size := by
  have hitems : ∀ ids : List String, (ids.map fun id => 1 + id.utf8ByteSize).sum ≤
      Value.itemsSize (ids.map .string) := by
    intro ids
    induction ids with
    | nil => exact le_rfl
    | cons id ids ih =>
      simp only [List.map_cons, List.sum_cons, Value.itemsSize, Value.size]
      omega
  have hsum := hitems doc.keyAgreement
  cases hids : doc.keyAgreement with
  | nil => simp
  | cons id ids =>
    have hid : Value.string id ∈ doc.keyAgreement.map .string := by simp [hids]
    -- the list is a member of the document, unless it is empty and left out
    have hlisted := @size_le_of_mem prim doc "keyAgreement" (.array (doc.keyAgreement.map .string))
      (List.mem_append_left _ (List.mem_append_right _ (mem_unlessEmpty hid)))
    simp only [Value.size] at hlisted
    rw [← hids]
    omega

end DidDocument

/-! ## What routing is given -/

/-- The DIDs that `route` resolves for a recipient: its own, its mediator's and those of the
hops. -/
def resolvedDids (resolver : Resolver) (to_ : String) : List String :=
  let mediator := match (resolver (didOf to_)).bind firstDidcommEndpoint with
    | .ok (some endpoint) => if startsWith endpoint.uri "did:" then [endpoint.uri] else []
    | _ => []
  let hops := match routePlan resolver to_ with
    | .ok (some plan) => plan.routingKeys.map didOf
    | _ => []
  didOf to_ :: mediator ++ hops

/-- The length of a DID's document. -/
def documentLength (prim : Primitives) (resolver : Resolver) (did : String) : ℕ :=
  match resolver did with
  | .ok doc => (doc.toJson prim).size
  | .error _ => 0

/-- The length of the payload, of the recipient's name and of the documents resolved for it. -/
def givenLength (prim : Primitives) (resolver : Resolver) (payload to_ : String) : ℕ :=
  payload.utf8ByteSize + to_.utf8ByteSize +
    ((resolvedDids resolver to_).map (documentLength prim resolver)).sum

end Didcomm
