import AlmenaMediator.Didcomm.Loopback
import AlmenaMediator.Didcomm.Did.Peer
import AlmenaMediator.Didcomm.Transparent

/-!
# `did:peer:2` round trip

A `did:peer:2` resolves to the keys and services it was built from. The services must be written
with the long member names, which is what the abbreviation can be undone from (`WrittenLong`).
`documentOf` is the document the keys and services stand for.

## Main results

* `renameKeys_renameKeys`: abbreviating is undone;
* `resolvePeer2_peer2`: the round trip.
-/

namespace Didcomm

variable {prim : Primitives} {base58 : Base58}

/-! ## Abbreviations -/

mutual

/-- A value as serde_json holds it, the names of an object distinct, with no short member name or
type value anywhere inside. -/
def WrittenLong : Value → Prop
  | .object members => (members.map Prod.fst).Nodup ∧ MembersLong members
  | .array items => ItemsLong items
  | _ => True

def MembersLong : List (String × Value) → Prop
  | [] => True
  | (name, v) :: members =>
    name ∉ abbreviations.map Prod.snd ∧ (name = "type" → v ≠ .string "dm") ∧ WrittenLong v ∧
      MembersLong members

def ItemsLong : List Value → Prop
  | [] => True
  | v :: vs => WrittenLong v ∧ ItemsLong vs

end

/-- The members of a service are written long when no name is an abbreviation, no type is the
abbreviated one, and every value is written long. -/
theorem membersLong_iff {members : List (String × Value)} :
    MembersLong members ↔ ∀ m ∈ members, m.1 ∉ abbreviations.map Prod.snd ∧
      (m.1 = "type" → m.2 ≠ .string "dm") ∧ WrittenLong m.2 := by
  induction members with
  | nil => simp [MembersLong]
  | cons m rest ih =>
    obtain ⟨name, v⟩ := m
    simp only [MembersLong, ih, List.forall_mem_cons, and_assoc]

/-- A member in its other form. -/
def renameMember (abbreviate : Bool) (m : String × Value) : String × Value :=
  let name := swapName abbreviate m.1
  (name, (swapType abbreviate name m.2).getD (renameKeys abbreviate m.2))

/-- Members whose new names are distinct are renamed one by one. -/
theorem renameMembers_eq_map {abbreviate : Bool} {out members : List (String × Value)}
    (hnodup : ((out ++ members.map (renameMember abbreviate)).map Prod.fst).Nodup) :
    renameMembers abbreviate out members = out ++ members.map (renameMember abbreviate) := by
  induction members generalizing out with
  | nil => simp [renameMembers]
  | cons m rest ih =>
    obtain ⟨name, v⟩ := m
    have hfresh : swapName abbreviate name ∉ out.map Prod.fst := by
      rw [List.map_append, List.nodup_append] at hnodup
      exact fun hmem => hnodup.2.2 _ hmem _ List.mem_cons_self rfl
    rw [renameMembers, Value.insert_eq_append hfresh]
    rw [ih (by simpa [renameMember] using hnodup)]
    simp [renameMember]

/-- A long name is found again from its short form. -/
theorem swapName_swapName {name : String} (hlong : name ∉ abbreviations.map Prod.snd) :
    swapName false (swapName true name) = name := by
  by_cases hname : name ∈ abbreviations.map Prod.fst
  · simp only [abbreviations, List.map_cons, List.map_nil, List.mem_cons, List.not_mem_nil,
      or_false] at hname
    rcases hname with rfl | rfl | rfl | rfl <;> rfl
  · -- a name without a short form is not a short form either
    have hkept : swapName true name = name := by
      simp only [abbreviations, List.map_cons, List.map_nil, List.mem_cons,
        List.not_mem_nil, or_false, not_or] at hname
      obtain ⟨htype, hendpoint, hkeys, haccept⟩ := hname
      simp [swapName, abbreviations, Ne.symm htype, Ne.symm hendpoint,
        Ne.symm hkeys, Ne.symm haccept]
    rw [hkept]
    simp only [abbreviations, List.map_cons, List.map_nil, List.mem_cons,
      List.not_mem_nil, or_false, not_or] at hlong
    obtain ⟨ht, hs, hr, ha⟩ := hlong
    simp [swapName, abbreviations, Ne.symm ht, Ne.symm hs, Ne.symm hr, Ne.symm ha]

/-- Long names keep apart when they are abbreviated. -/
theorem nodup_swapName {names : List String} (hnodup : names.Nodup)
    (hlong : ∀ name ∈ names, name ∉ abbreviations.map Prod.snd) :
    (names.map (swapName true)).Nodup := by
  refine List.Nodup.map_on (fun a ha b hb hab => ?_) hnodup
  rw [← swapName_swapName (hlong a ha), ← swapName_swapName (hlong b hb), hab]

/-- The short form of a type value is undone under the long name. -/
theorem swapType_abbreviated {name : String} {v w : Value}
    (hlong : name ∉ abbreviations.map Prod.snd)
    (h : swapType true (swapName true name) v = some w) :
    name = "type" ∧ v = .string didcommServiceType ∧ w = .string "dm" := by
  have hname := swapName_swapName hlong
  simp only [swapType, ↓reduceIte, Option.ite_none_right_eq_some, Option.some.injEq] at h
  obtain ⟨hshort, hv, rfl⟩ := h
  refine ⟨?_, ?_, rfl⟩
  · rcases hshort with hshort | hshort
    · rw [hshort] at hname
      exact hname.symm
    · rw [hshort] at hname
      exact hname.symm
  · cases v <;> simp_all [Value.asStr]

/-- What is not a short type value is renamed as any other value. -/
theorem swapType_eq_none {name : String} {v : Value} (hlong : name ∉ abbreviations.map Prod.snd)
    (htype : name = "type" → v ≠ .string "dm") :
    swapType false name (renameKeys true v) = none := by
  have ht : name ≠ "t" := by
    rintro rfl
    exact hlong (by decide)
  have hv : name = "type" → (renameKeys true v).asStr ≠ some "dm" := by
    intro hname
    have hne := htype hname
    cases v <;> simp_all [renameKeys, Value.asStr]
  simp only [swapType, ht, false_or, Bool.false_eq_true, ↓reduceIte]
  split_ifs with hname hdm
  · exact absurd hdm (hv hname)
  · rfl
  · rfl

/-- Abbreviating a member that is written long and expanding it again gives the member back. -/
theorem renameMember_renameMember {m : String × Value} (hlong : m.1 ∉ abbreviations.map Prod.snd)
    (htype : m.1 = "type" → m.2 ≠ .string "dm")
    (hvalue : renameKeys false (renameKeys true m.2) = m.2) :
    renameMember false (renameMember true m) = m := by
  obtain ⟨name, v⟩ := m
  have hname : swapName false (swapName true name) = name := swapName_swapName hlong
  cases h : swapType true (swapName true name) v with
  | some w =>
    obtain ⟨rfl, rfl, rfl⟩ := swapType_abbreviated hlong h
    rfl
  | none => simp [renameMember, h, hname, swapType_eq_none hlong htype, hvalue]

mutual

/-- Abbreviating is undone. -/
theorem renameKeys_renameKeys (v : Value) (hlong : WrittenLong v) :
    renameKeys false (renameKeys true v) = v := by
  match v with
  | .null | .bool _ | .number _ | .string _ => rfl
  | .array items => rw [renameKeys, renameKeys, renameItems_renameItems items hlong]
  | .object members =>
    have hmembers := map_renameMember members hlong.2
    have hnames : ∀ name ∈ members.map Prod.fst, name ∉ abbreviations.map Prod.snd := by
      intro name hname
      obtain ⟨m, hm, rfl⟩ := List.mem_map.mp hname
      exact (membersLong_iff.mp hlong.2 m hm).1
    have hshort := nodup_swapName hlong.1 hnames
    rw [renameKeys, renameMembers_eq_map (by simpa [renameMember, Function.comp_def] using hshort),
      List.nil_append, renameKeys, renameMembers_eq_map (by simpa [hmembers] using hlong.1),
      List.nil_append, List.map_map, hmembers]

/-- Abbreviating members that are written long and expanding them again gives them back. -/
theorem map_renameMember (members : List (String × Value)) (hlong : MembersLong members) :
    members.map (renameMember false ∘ renameMember true) = members := by
  match members with
  | [] => rfl
  | (name, v) :: rest =>
    obtain ⟨hname, htype, hv, hrest⟩ := hlong
    rw [List.map_cons, map_renameMember rest hrest]
    congr 1
    exact renameMember_renameMember hname htype (renameKeys_renameKeys v hv)

/-- Abbreviating items that are written long and expanding them again gives them back. -/
theorem renameItems_renameItems (items : List Value) (hlong : ItemsLong items) :
    renameItems false (renameItems true items) = items := by
  match items with
  | [] => rfl
  | v :: vs =>
    rw [renameItems, renameItems, renameKeys_renameKeys v hlong.1,
      renameItems_renameItems vs hlong.2]

end

/-! ## The elements of a DID -/

variable (prim base58) in
/-- The elements a DID is written with. -/
def elementsOf (keys : List (Purpose × PublicKey)) (services : List Value) : List (List Char) :=
  (keys.map fun key => (keyElement base58 key).toList) ++
    services.map fun service => (serviceElement prim service).toList

/-- Appending elements one by one with a dot before each is appending them all so. -/
theorem toList_foldl_append {α : Type} (element : α → String) (xs : List α) (did : String) :
    (xs.foldl (fun did x => did ++ "." ++ element x) did).toList =
      did.toList ++ (xs.map fun x => (element x).toList).flatMap fun e => '.' :: e := by
  induction xs generalizing did with
  | nil => simp
  | cons x xs ih => simp [ih]

/-- Elements with a dot before each are elements with a dot between them, after a first one. -/
theorem flatMap_eq_intercalate {elements : List (List Char)} (hne : elements ≠ []) :
    (elements.flatMap fun e => '.' :: e) = '.' :: ['.'].intercalate elements := by
  induction elements with
  | nil => exact absurd rfl hne
  | cons e rest ih =>
    cases rest with
    | nil => simp [List.intercalate]
    | cons e' rest =>
      rw [List.flatMap_cons, ih (by simp)]
      simp [List.intercalate]

/-- What is left of a DID without its method. -/
theorem stripPrefix_peer2 {keys : List (Purpose × PublicKey)} {services : List Value} {did : String}
    (hdid : peer2 prim base58 keys services = .ok did)
    (hne : elementsOf prim base58 keys services ≠ []) : stripPrefix did "did:peer:2." =
      some (String.ofList (['.'].intercalate (elementsOf prim base58 keys services))) := by
  have htext : did.toList = "did:peer:2".toList ++
      (elementsOf prim base58 keys services).flatMap fun e => '.' :: e := by
    rw [← pure_eq_ok.mp hdid, toList_foldl_append, toList_foldl_append,
      elementsOf, List.flatMap_append, List.append_assoc]
  rw [flatMap_eq_intercalate hne] at htext
  have hsplit : did = "did:peer:2." ++
      String.ofList (['.'].intercalate (elementsOf prim base58 keys services)) := by
    apply String.toList_inj.mp
    rw [htext]
    simp
  rw [hsplit, stripPrefix_append]

/-- No element of a did:peer:2 has a dot, so the dots stand between them. -/
theorem dot_notMem_elementsOf (hbase58 : base58.Lawful) {keys : List (Purpose × PublicKey)}
    {services : List Value} : ∀ e ∈ elementsOf prim base58 keys services, '.' ∉ e := by
  intro e he hdot
  rcases List.mem_append.mp he with he | he
  · obtain ⟨⟨purpose, key⟩, -, rfl⟩ := List.mem_map.mp he
    rw [keyElement, String.toList_append, List.mem_append] at hdot
    rcases hdot with hdot | hdot
    · have hcode : '.' ≠ purpose.code := by cases purpose <;> decide
      exact hcode (by simpa using hdot)
    · exact absurd (Multikey.isAlphanum_encode hbase58 key _ hdot) (by decide)
  · obtain ⟨service, -, rfl⟩ := List.mem_map.mp he
    rw [serviceElement, String.toList_append, List.mem_append] at hdot
    rcases hdot with hdot | hdot
    · exact absurd hdot (by decide)
    · exact Base64Url.not_mem_encode (by decide) hdot

/-- The elements are found again in the DID. -/
theorem splitOn_intercalate_elementsOf (hbase58 : base58.Lawful) {keys : List (Purpose × PublicKey)}
    {services : List Value} (hne : elementsOf prim base58 keys services ≠ []) :
    (['.'].intercalate (elementsOf prim base58 keys services)).splitOn '.' =
      elementsOf prim base58 keys services :=
  List.splitOn_intercalate '.' (dot_notMem_elementsOf hbase58) hne

/-! ## Keys -/

/-- The verification method written for the key after `n` others. -/
def vmOf (base58 : Base58) (did : String) (key : PublicKey) (n : ℕ) : Value :=
  .object [("id", .string (keyId n)), ("type", .string "Multikey"), ("controller", .string did),
    ("publicKeyMultibase", .string (Multikey.encode base58 key))]

/-- The ids, relative, of the keys with a purpose, when `n` keys come before them. -/
def idsOf (purpose : Purpose) (n : ℕ) (keys : List (Purpose × PublicKey)) : List String :=
  ((keys.zipIdx n).filter fun key => key.1.1 = purpose).map fun key => keyId key.2

/-- What reading keys adds to the elements found. -/
def Elements.withKeys (base58 : Base58) (did : String) (keys : List (Purpose × PublicKey))
    (found : Elements) : Elements :=
  { found with
    vms := found.vms ++ (keys.zipIdx found.vms.length).map fun key => vmOf base58 did key.1.2 key.2
    authentication := found.authentication ++
      (idsOf .verification found.vms.length keys).map Value.string
    assertion := found.assertion ++ (idsOf .assertion found.vms.length keys).map Value.string
    keyAgreement := found.keyAgreement ++ (idsOf .encryption found.vms.length
      keys).map Value.string }

/-- A key is its own public half: its bytes decode to themselves. -/
def PublicKey.Valid (prim : Primitives) (key : PublicKey) : Prop :=
  prim.decodePoint key.curve key.bytes = some key.bytes

/-- The element of a key is read as the key's method, related by the key's purpose. -/
theorem readElement_keyElement (hbase58 : base58.Lawful) {did : String} {found : Elements}
    {key : Purpose × PublicKey} (hkey : key.2.Valid prim) :
    readElement prim base58 did found (keyElement base58 key).toList =
      .ok ({ found with vms := found.vms ++ [vmOf base58 did key.2 found.vms.length] }.relate key.1
        (.string (keyId found.vms.length))) := by
  obtain ⟨purpose, key⟩ := key
  have hdecode := Multikey.decode_encode hbase58.decode_encode hkey
  cases purpose <;>
    simp [readElement, keyElement, Purpose.code, Purpose.fromCode, hdecode, okOr,
      bind, Except.bind, vmOf, pure, Except.pure]

/-- Reading the elements of keys, one after the other. -/
theorem foldlM_readElement_keys (hbase58 : base58.Lawful) {did : String}
    {keys : List (Purpose × PublicKey)} (hkeys : ∀ key ∈ keys, key.2.Valid prim)
    (found : Elements) :
    (keys.map fun key => (keyElement base58 key).toList).foldlM
      (readElement prim base58 did) found = .ok (found.withKeys base58 did keys) := by
  induction keys generalizing found with
  | nil => simp [Elements.withKeys, idsOf, pure, Except.pure]
  | cons key keys ih =>
    rw [List.map_cons, List.foldlM_cons, readElement_keyElement hbase58
      (hkeys key List.mem_cons_self)]
    refine (ih (fun key hkey => hkeys key (List.mem_cons_of_mem _ hkey))
      _).trans (congrArg Except.ok ?_)
    obtain ⟨purpose, key⟩ := key
    cases purpose <;> simp [Elements.withKeys, Elements.relate, idsOf, List.zipIdx_cons]

/-! ## Services -/

/-- A service to be written: an object with a string type and an absent or string id, with long
names, that is read back as JSON. -/
structure WritableService (prim : Primitives) (members : List (String × Value)) : Prop where
  long : WrittenLong (.object members)
  kind : ∃ kind, Value.lookup "type" members = some (.string kind)
  id : Value.lookup "id" members = none ∨ ∃ id, Value.lookup "id" members = some (.string id)
  json : prim.Keeps (renameKeys true (.object members))

/-- A field next to a string endpoint, as a member of the endpoint. -/
def movedIn (field : String) (members : List (String × Value)) : List (String × Value) :=
  (Value.lookup field members).toList.map fun v => (field, v)

/-- The endpoints of a service: for `DIDCommMessaging` in a list of objects, a string taking in the
fields next to it. -/
def endpointOf (members : List (String × Value)) : Value :=
  let endpoint := (Value.lookup "serviceEndpoint" members).getD .null
  if Value.lookup "type" members = some (.string didcommServiceType) then
    match endpoint with
    | .string uri => .array [.object
        (("uri", .string uri) :: movedIn "accept" members ++ movedIn "routingKeys" members)]
    | .object endpoint => .array [.object endpoint]
    | other => other
  else endpoint

/-- The service at a position, as its document has it. -/
def serviceOf (did : String) (members : List (String × Value)) (i : ℕ) : Service where
  id := DidDocument.absolute did
    (((Value.lookup "id" members).bind Value.asStr).getD (positionalId i))
  kind := ((Value.lookup "type" members).bind Value.asStr).getD ""
  endpoint := endpointOf members

/-- A type is `DIDCommMessaging` as a string or not at all. -/
theorem bind_asStr_eq_some {v : Option Value} {s : String} :
    v.bind Value.asStr = some s ↔ v = some (.string s) := by
  cases v with
  | none => simp
  | some v => cases v <;> simp [Value.asStr]

/-- Moving a field into an endpoint that does not have it. -/
theorem moveField_eq {field : String} {obj endpoint : List (String × Value)}
    (hfresh : field ∉ endpoint.map Prod.fst) :
    moveField (obj, endpoint) field =
      (if Value.containsKey field obj then Value.swapRemove field obj else obj,
        endpoint ++ movedIn field obj) := by
  rw [Value.containsKey_eq_isSome, movedIn, moveField]
  cases Value.lookup field obj with
  | none => simp
  | some v => simp [Value.insert_eq_append hfresh]

/-- A string endpoint takes in the fields next to it. -/
theorem normalize_string {members : List (String × Value)} (hnodup : (members.map Prod.fst).Nodup)
    (htype : Value.lookup "type" members = some (.string didcommServiceType)) {uri : String}
    (huri : Value.lookup "serviceEndpoint" members = some (.string uri)) :
    ∃ obj, (∀ name, name ≠ "accept" → name ≠ "routingKeys" →
        Value.lookup name obj = Value.lookup name members) ∧
      normalizeDidcommService (.object members) = .object (Value.insert "serviceEndpoint"
        (.object (("uri", .string uri) :: movedIn "accept" members ++
          movedIn "routingKeys" members)) obj) := by
  have hremove : ∀ field obj, (obj.map Prod.fst).Nodup → ∀ name, name ≠ field →
      Value.lookup name (if Value.containsKey field obj then Value.swapRemove field obj else obj) =
        Value.lookup name obj := by
    intro field obj hobj name hname
    split_ifs
    · exact Value.lookup_swapRemove_of_ne hobj hname
    · rfl
  have hnodup' : ((if Value.containsKey "accept" members then Value.swapRemove "accept" members
      else members).map Prod.fst).Nodup := by
    split_ifs
    · exact Value.nodup_swapRemove hnodup
    · exact hnodup
  -- moving `accept` into the endpoint leaves `routingKeys` where it is
  have hkeys : movedIn "routingKeys" (if Value.containsKey "accept" members then
      Value.swapRemove "accept" members else members) = movedIn "routingKeys" members := by
    rw [movedIn, hremove _ _ hnodup _ (by decide), movedIn]
  have haccept : "accept" ∉ [("uri", Value.string uri)].map Prod.fst := by simp
  have hrouting : "routingKeys" ∉
      ([("uri", Value.string uri)] ++ movedIn "accept" members).map Prod.fst := by
    simp [movedIn]
  refine ⟨_, fun name ha hr => (hremove "routingKeys" _ hnodup' name hr).trans
    (hremove "accept" _ hnodup name ha), ?_⟩
  rw [normalizeDidcommService, if_neg (by rw [not_not, bind_asStr_eq_some]; exact htype), huri]
  simp only [List.foldl_cons, List.foldl_nil, moveField_eq haccept, moveField_eq hrouting, hkeys]
  rfl

/-- What normalizing leaves of a service: its endpoint is in the form to be wrapped, and all but the
fields moved into it is as it was. -/
theorem exists_normalize {members : List (String × Value)} (hnodup : (members.map Prod.fst).Nodup) :
    ∃ obj endpoint, normalizeDidcommService (.object members) = .object obj ∧
      (∀ name, name ≠ "accept" → name ≠ "routingKeys" → name ≠ "serviceEndpoint" →
        Value.lookup name obj = Value.lookup name members) ∧
      (Value.lookup "serviceEndpoint" obj).getD .null = endpoint ∧
      (if Value.lookup "type" members = some (.string didcommServiceType) ∧ endpoint.isObject then
        Value.array [endpoint] else endpoint) = endpointOf members := by
  -- only a DIDComm service whose endpoint is a string is rewritten
  by_cases htype : Value.lookup "type" members = some (.string didcommServiceType)
  · by_cases huri : ∃ uri, Value.lookup "serviceEndpoint" members = some (.string uri)
    · obtain ⟨uri, huri⟩ := huri
      obtain ⟨obj, hobj, hnormal⟩ := normalize_string hnodup htype huri
      refine ⟨_, _, hnormal, fun name haccept hkeys hendpoint => ?_,
        congrArg (Option.getD · .null) Value.lookup_insert_self, ?_⟩
      · rw [Value.lookup_insert_of_ne hendpoint, hobj name haccept hkeys]
      · simp [endpointOf, htype, huri, Value.isObject, Value.asObject]
    · have hsame : normalizeDidcommService (.object members) = .object members := by
        rw [normalizeDidcommService]
        split_ifs
        · rfl
        · split
          · rename_i uri h
            exact absurd ⟨uri, h⟩ huri
          · rfl
      refine ⟨members, _, hsame, fun _ _ _ _ => rfl, rfl, ?_⟩
      cases h : Value.lookup "serviceEndpoint" members with
      | none => simp [endpointOf, htype, h, Value.isObject, Value.asObject]
      | some endpoint =>
        cases endpoint with
        | string uri => exact absurd ⟨uri, h⟩ huri
        | _ => simp [endpointOf, htype, h, Value.isObject, Value.asObject]
  · have hsame : normalizeDidcommService (.object members) = .object members :=
      if_pos (by rwa [ne_eq, bind_asStr_eq_some])
    refine ⟨members, _, hsame, fun _ _ _ _ => rfl, rfl, ?_⟩
    simp [endpointOf, htype]

/-- A service, as resolving writes it into the document. -/
def serviceValue (members : List (String × Value)) (n : ℕ) : Value :=
  withServiceId n (normalizeDidcommService (.object members))

/-- A service is found again in its element. -/
theorem readElement_serviceElement {did : String} {found : Elements}
    {members : List (String × Value)} (hservice : WritableService prim members) :
    readElement prim base58 did found (serviceElement prim (.object members)).toList =
      .ok { found with services := found.services ++
        [serviceValue members found.services.length] } := by
  -- what is encoded without padding has none to trim
  have hpadding : ∀ bytes, trimPadding (b64Encode bytes).toList = (b64Encode bytes).toList := by
    intro bytes
    rw [trimPadding, List.rdropWhile_eq_self_iff]
    intro hne hlast
    have hmem := List.getLast_mem hne
    rw [beq_iff_eq.mp hlast] at hmem
    exact Base64Url.not_mem_encode (by decide) hmem
  have htext : (serviceElement prim (.object members)).toList =
      'S' :: (b64Encode (prim.value.toVec (renameKeys true (.object members)))).toList := by
    rw [serviceElement, String.toList_append]
    rfl
  rw [htext, readElement, hpadding, String.ofList_toList, b64Decode_b64Encode]
  refine bind_eq_ok.mpr ⟨_, rfl, bind_eq_ok.mpr ⟨_, ofJson_eq_ok.mpr hservice.json, ?_⟩⟩
  rw [renameKeys_renameKeys _ hservice.long]
  rfl

/-- Reading the elements of services, one after the other. -/
theorem foldlM_readElement_services {did : String} {services : List (List (String × Value))}
    (hservices : ∀ members ∈ services, WritableService prim members) (found : Elements) :
    (services.map fun members => (serviceElement prim (.object members)).toList).foldlM
        (readElement prim base58 did) found =
      .ok { found with
        services := found.services ++
          (services.zipIdx found.services.length).map fun s => serviceValue s.1 s.2 } := by
  induction services generalizing found with
  | nil => simp [pure, Except.pure]
  | cons members services ih =>
    rw [List.map_cons, List.foldlM_cons,
      readElement_serviceElement (hservices members List.mem_cons_self)]
    refine (ih (fun m hm => hservices m (List.mem_cons_of_mem _ hm))
      _).trans (congrArg Except.ok ?_)
    simp [List.zipIdx_cons]

/-- Giving a service an id sets its `id` to its own or to the positional one, and keeps the other
members. -/
theorem lookup_withServiceId (obj : List (String × Value)) (n : ℕ) :
    ∃ obj', withServiceId n (.object obj) = .object obj' ∧
      (∀ name, name ≠ "id" → Value.lookup name obj' = Value.lookup name obj) ∧
      Value.lookup "id" obj' = some ((Value.lookup "id" obj).getD (.string (positionalId n))) := by
  rw [withServiceId, Value.containsKey_eq_isSome]
  split_ifs with hid
  · obtain ⟨id, hid⟩ := Option.isSome_iff_exists.mp hid
    exact ⟨obj, rfl, fun _ _ => rfl, by rw [hid]; rfl⟩
  · refine ⟨_, rfl, fun name hname => Value.lookup_insert_of_ne hname, ?_⟩
    rw [Value.lookup_insert_self, Option.not_isSome_iff_eq_none.mp hid]
    rfl

/-- The document's reader makes of a service what it stands for. -/
theorem parseService_serviceValue {did : String} {members : List (String × Value)} {i : ℕ}
    (hservice : WritableService prim members) :
    DidDocument.parseService did i (serviceValue members i) = .ok (serviceOf did members i) := by
  obtain ⟨obj, endpoint, hnormal, hkept, hendpoint, hform⟩ := exists_normalize hservice.long.1
  obtain ⟨obj', hobj', hkept', hid⟩ := lookup_withServiceId obj i
  obtain ⟨kind, hkind⟩ := hservice.kind
  have htype : Value.lookup "type" obj' = some (.string kind) := by
    rw [hkept' _ (by decide), hkept _ (by decide) (by decide) (by decide), hkind]
  have hendpoint' : (Value.lookup "serviceEndpoint" obj').getD .null = endpoint := by
    rw [hkept' _ (by decide), hendpoint]
  rw [hkept _ (by decide) (by decide) (by decide)] at hid
  -- a service without an id is given one by its position
  have hid' : (Value.lookup "id" obj').bind Value.asStr =
      some (((Value.lookup "id" members).bind Value.asStr).getD (positionalId i)) := by
    rw [hid]
    rcases hservice.id with hnone | ⟨id, hsome⟩
    · rw [hnone]
      rfl
    · rw [hsome]
      rfl
  simp only [hkind, Option.some.injEq, Value.string.injEq] at hform
  have hkind' : ((Value.lookup "type" members).bind Value.asStr).getD "" = kind := by
    rw [hkind]; rfl
  rw [serviceValue, hnormal, hobj', DidDocument.parseService, serviceOf, hkind']
  refine bind_eq_ok.mpr ⟨kind, by rw [Value.get, htype]; rfl, ?_⟩
  simp only [Value.get, hid', hendpoint', hform, Option.getD_some]
  rfl

/-! ## Documents -/

/-- The id of a key is relative, and becomes absolute by the DID before it. -/
theorem absolute_keyId (did : String)
    (n : ℕ) : DidDocument.absolute did (keyId n) = did ++ keyId n := by
  have hstart : startsWith (keyId n) "#" = true := by
    rw [startsWith, keyId, String.toList_append]
    rfl
  exact if_pos hstart

/-- The methods of keys when `n` keys come before them. -/
def methodsOf (did : String) (n : ℕ) (keys : List (Purpose × PublicKey)) :
    List VerificationMethod :=
  (keys.zipIdx n).map fun key => ⟨did ++ keyId key.2, did, key.1.2⟩

/-- The method that stands for the n-th key is read as a method of the DID with that key. -/
theorem parseMethod_vmOf (hbase58 : base58.Lawful) (did : String) {key : PublicKey}
    (hkey : key.Valid prim) (n : ℕ) :
    DidDocument.parseMethod prim base58 did (vmOf base58 did key n) =
      .ok (some ⟨did ++ keyId n, did, key⟩) := by
  have hdecode := Multikey.decode_encode hbase58.decode_encode hkey
  have hmethod : DidDocument.methodKey prim base58 (vmOf base58 did key n) = .ok (some key) := by
    simp [DidDocument.methodKey, vmOf, Value.get, Value.lookup, Value.asStr,
      hdecode, bind, Except.bind, pure, Except.pure]
  refine bind_eq_ok.mpr ⟨keyId n, rfl, bind_eq_ok.mpr ⟨_, hmethod, ?_⟩⟩
  rw [absolute_keyId]
  rfl

/-- The methods that stand for the keys are all read, in the order of the keys. -/
theorem parseMethods_vmOf (hbase58 : base58.Lawful) (did : String)
    {keys : List (Purpose × PublicKey)} (hkeys : ∀ key ∈ keys, key.2.Valid prim) (n : ℕ) :
    DidDocument.parseMethods prim base58 did
        ((keys.zipIdx n).map fun key => vmOf base58 did key.1.2 key.2) =
      .ok (methodsOf did n keys) := by
  induction keys generalizing n with
  | nil => rfl
  | cons key keys ih =>
    have hrest := ih (fun key hkey => hkeys key (List.mem_cons_of_mem _ hkey)) (n + 1)
    have hfirst := parseMethod_vmOf hbase58 did (hkeys key List.mem_cons_self) n
    rw [List.zipIdx_cons, List.map_cons]
    exact bind_eq_ok.mpr ⟨_, hfirst, bind_eq_ok.mpr ⟨_, hrest, rfl⟩⟩

/-- The services are all read, in their order, with absolute ids. -/
theorem parseServices_serviceValue (did : String) {services : List (List (String × Value))}
    (hservices : ∀ members ∈ services, WritableService prim members) (i : ℕ) :
    DidDocument.parseServices did i ((services.zipIdx i).map fun s => serviceValue s.1 s.2) =
      .ok ((services.zipIdx i).map fun s => serviceOf did s.1 s.2) := by
  induction services generalizing i with
  | nil => rfl
  | cons members services ih =>
    rw [List.zipIdx_cons, List.map_cons, List.map_cons]
    exact bind_eq_ok.mpr ⟨_, parseService_serviceValue (hservices members List.mem_cons_self),
      bind_eq_ok.mpr ⟨_, ih (fun m hm => hservices m (List.mem_cons_of_mem _ hm)) (i + 1), rfl⟩⟩

/-- The document that keys and services stand for. -/
def documentOf (did : String) (keys : List (Purpose × PublicKey))
    (services : List (List (String × Value))) : DidDocument where
  id := did
  alsoKnownAs := []
  verificationMethod := methodsOf did 0 keys
  authentication := (idsOf .verification 0 keys).map (did ++ ·)
  assertionMethod := (idsOf .assertion 0 keys).map (did ++ ·)
  keyAgreement := (idsOf .encryption 0 keys).map (did ++ ·)
  service := services.zipIdx.map fun s => serviceOf did s.1 s.2

/-- The ids of the keys of a purpose become absolute by the DID before them. -/
theorem map_absolute_idsOf (did : String) (purpose : Purpose) (keys : List (Purpose × PublicKey)) :
    (idsOf purpose 0 keys).map (DidDocument.absolute did) =
      (idsOf purpose 0 keys).map (did ++ ·) := by
  rw [idsOf, List.map_map, List.map_map]
  exact List.map_congr_left fun key _ => absolute_keyId did key.2

/-- The document's reader makes of what is found in a DID what it was written from. -/
theorem fromJson_withKeys (hbase58 : base58.Lawful) {did : String}
    {keys : List (Purpose × PublicKey)} {services : List (List (String × Value))}
    (hkeys : ∀ key ∈ keys, key.2.Valid prim)
    (hservices : ∀ members ∈ services, WritableService prim members) :
    DidDocument.fromJson prim base58 (.object
      [("id", .string did),
        ("verificationMethod", .array
          ((keys.zipIdx 0).map fun key => vmOf base58 did key.1.2 key.2)),
        ("authentication", .array ((idsOf .verification 0 keys).map Value.string)),
        ("assertionMethod", .array ((idsOf .assertion 0 keys).map Value.string)),
        ("keyAgreement", .array ((idsOf .encryption 0 keys).map Value.string)),
        ("service", .array ((services.zipIdx 0).map fun s => serviceValue s.1 s.2))]) =
      .ok (documentOf did keys services) := by
  have hmethods := parseMethods_vmOf hbase58 did hkeys 0
  have hservice := parseServices_serviceValue did hservices 0
  -- the six members, in the order `fromJson` reads them
  refine bind_eq_ok.mpr ⟨_, rfl, bind_eq_ok.mpr ⟨did, rfl, bind_eq_ok.mpr ⟨_, hmethods, ?_⟩⟩⟩
  refine bind_eq_ok.mpr ⟨_, DidDocument.parseRelationship_strings _ _, ?_⟩
  refine bind_eq_ok.mpr ⟨_, DidDocument.parseRelationship_strings _ _, ?_⟩
  refine bind_eq_ok.mpr ⟨_, DidDocument.parseRelationship_strings _ _, ?_⟩
  refine bind_eq_ok.mpr ⟨_, hservice, ?_⟩
  rw [pure_eq_ok, documentOf, ← map_absolute_idsOf, ← map_absolute_idsOf, ← map_absolute_idsOf]
  rfl

/-- A `did:peer:2` resolves to the keys and services it was built from. -/
theorem resolvePeer2_peer2 (hbase58 : base58.Lawful) {keys : List (Purpose × PublicKey)}
    {services : List (List (String × Value))} (hkeys : ∀ key ∈ keys, key.2.Valid prim)
    (hservices : ∀ members ∈ services, WritableService prim members)
    (hne : keys ≠ [] ∨ services ≠ []) :
    ∃ did, peer2 prim base58 keys (services.map Value.object) = .ok did ∧
      resolvePeer2 prim base58 did = .ok (documentOf did keys services) := by
  obtain ⟨did, hdid⟩ : ∃ did, peer2 prim base58 keys (services.map Value.object) = .ok did :=
    ⟨_, rfl⟩
  have hne' : elementsOf prim base58 keys (services.map Value.object) ≠ [] := by
    rcases hne with hne | hne <;> simp [elementsOf, hne]
  -- the keys come first, and then the services
  have hread : (elementsOf prim base58 keys (services.map Value.object)).foldlM
      (readElement prim base58 did) ⟨[], [], [], [], []⟩ =
      .ok { Elements.withKeys base58 did keys ⟨[], [], [], [], []⟩ with
        services := (services.zipIdx 0).map fun s => serviceValue s.1 s.2 } := by
    rw [elementsOf, List.foldlM_append, foldlM_readElement_keys hbase58 hkeys, List.map_map]
    exact foldlM_readElement_services hservices _
  have hsplit : ((String.ofList (['.'].intercalate
      (elementsOf prim base58 keys (services.map Value.object)))).toList).splitOn '.' =
      elementsOf prim base58 keys (services.map Value.object) := by
    rw [String.toList_ofList, splitOn_intercalate_elementsOf hbase58 hne']
  refine ⟨did, hdid, bind_eq_ok.mpr ⟨_, okOr_eq_ok.mpr (stripPrefix_peer2 hdid hne'), ?_⟩⟩
  exact bind_eq_ok.mpr ⟨_, (congrArg _ hsplit).trans hread,
    fromJson_withKeys hbase58 hkeys hservices⟩

/-! ## A DID with two keys and a service -/

/-- A did:peer:2 with two keys and a service is made and resolved to a document with both. -/
theorem resolvePeer2_peer2_mediated :
    ∃ did doc, peer2 Transparent.packages bs58
        [(.encryption, Loopback.agreementKey), (.verification, Loopback.signingKey)]
        [.object [("type", .string "DIDCommMessaging"),
          ("serviceEndpoint", .string "https://a.example"),
            ("accept", .array [.string "didcomm/v2"])]] = .ok did ∧
              resolvePeer2 Transparent.packages bs58 did = .ok doc ∧
                doc.keyAgreement = [did ++ "#key-1"] ∧ doc.authentication = [did ++ "#key-2"] ∧
      doc.service.map Service.endpoint = [.array [.object [("uri", .string "https://a.example"),
        ("accept", .array [.string "didcomm/v2"])]]] := by
  have hservice : WritableService Transparent.packages
      [("type", .string "DIDCommMessaging"), ("serviceEndpoint", .string "https://a.example"),
        ("accept", .array [.string "didcomm/v2"])] :=
    { long := by simp [WrittenLong, MembersLong, ItemsLong, abbreviations]
      kind := ⟨_, rfl⟩
      id := .inl rfl
      json := Transparent.keeps _ }
  have hkeys : ∀ key ∈ [(Purpose.encryption, Loopback.agreementKey),
    (.verification, Loopback.signingKey)],
      key.2.Valid Transparent.packages := by
    simp only [List.forall_mem_cons]
    exact ⟨rfl, rfl, by simp⟩
  obtain ⟨did, hdid, hdoc⟩ := @resolvePeer2_peer2 Transparent.packages _
    bs58_lawful [(.encryption, Loopback.agreementKey), (.verification, Loopback.signingKey)]
    [[("type", .string "DIDCommMessaging"), ("serviceEndpoint", .string "https://a.example"),
      ("accept", .array [.string "didcomm/v2"])]]
    hkeys (by simpa using hservice) (.inl (by simp))
  exact ⟨did, _, hdid, hdoc, rfl, rfl, rfl⟩

end Didcomm
