import AlmenaMediator.Didcomm.Did.Multikey
import Mathlib.Data.List.Basic

/-!
# `did:web`

`did/web.rs`: the mapping between a DID and the URL of its document. Fetching the document needs
HTTP and is left to the caller.

## Main results

* `documentUrl_didFromOrigin`: the document of an origin's DID is at that origin, over HTTPS;
* `didFromOrigin_eq_iff`: origins have the same DID exactly when their hosts are the same up to
  case.
-/

namespace Didcomm

/-! ## Replacing text -/

/-- `str::replace` of a text that is not empty, after leaving out what is left of the last match. -/
def replaceFrom (pat new : List Char) : ℕ → List Char → List Char
  | _, [] => []
  | k + 1, _ :: rest => replaceFrom pat new k rest
  | 0, c :: rest =>
    if pat.isPrefixOf (c :: rest) then new ++ replaceFrom pat new (pat.length - 1) rest
    else c :: replaceFrom pat new 0 rest

def replace (pat new text : String) : String :=
  String.ofList (replaceFrom pat.toList new.toList 0 text.toList)

/-- `str::replace` of a character. -/
def replaceChar (c : Char) (new : String) (text : String) : String :=
  String.ofList (text.toList.flatMap fun d => if d = c then new.toList else [d])

/-- `str::to_ascii_lowercase`. -/
def toAsciiLowercase (text : String) : String := String.ofList (text.toList.map Char.toLower)

/-- `str::strip_suffix`, or the text itself. -/
def withoutSuffix (text suffix : String) : String :=
  if suffix.toList.isSuffixOf text.toList then
    String.ofList (text.toList.take (text.toList.length - suffix.toList.length))
  else text

/-! ## The mapping -/

/-- The host of an origin, with its port. -/
def originHost (origin : String) : Result String := do
  let rest ← okOr (.malformed "did:web origin must be an http(s) URL")
    ((stripPrefix origin "https://").or (stripPrefix origin "http://"))
  let host := withoutSuffix rest "/"
  if host.toList = [] ∨ host.toList.any (['/', '?', '#', '@'].contains ·) then
    .error (.malformed "did:web origin must be scheme://host[:port] only")
  else .ok host

/-- The `did:web` DID of a site root. The URL must have no path, query or fragment, because the
document is then served at `/.well-known/did.json`. -/
def didFromOrigin (origin : String) : Result String := do
  let host ← originHost origin
  pure ("did:web:" ++ replaceChar ':' "%3A" (toAsciiLowercase host))

/-- The HTTPS URL of a `did:web` document. -/
def documentUrl (did : String) : Result String := do
  let id ← okOr (.malformed "not a did:web") (stripPrefix did "did:web:")
  match id.toList.splitOn ':' with
  | [] => .error (.malformed "did:web without host")
  | first :: path =>
    if first = [] then .error (.malformed "did:web without host")
    else
      let host := replace "%3a" ":" (replace "%3A" ":" (String.ofList first))
      if [] ∈ path then .error (.malformed "did:web with an empty path segment")
      else if path = [] then .ok ("https://" ++ host ++ "/.well-known/did.json")
      else .ok ("https://" ++ host ++ "/" ++ String.ofList (['/'].intercalate path) ++ "/did.json")

/-! ## The round trip -/

/-- Hides the colons of a host. -/
abbrev escapeColons (host : List Char) : List Char :=
  host.flatMap fun c => if c = ':' then ['%', '3', 'A'] else [c]

/-- No colon is left in a host whose colons are escaped. -/
theorem colon_notMem_escapeColons (host : List Char) : ':' ∉ escapeColons host := by
  induction host with
  | nil => exact List.not_mem_nil
  | cons c host ih =>
    rw [escapeColons, List.flatMap_cons, List.mem_append, not_or]
    refine ⟨?_, ih⟩
    split_ifs with hc
    · decide
    · simpa using Ne.symm hc

/-- Only an escaped colon looks like one, in a host without capitals. -/
theorem isPrefixOf_escapeColons {c : Char} {host : List Char} (hhost : 'A' ∉ host) :
    ['%', '3', 'A'].isPrefixOf (c :: escapeColons host) = false := by
  -- the `A` of an escape that begins here would be in the host
  by_contra hprefix
  rw [Bool.not_eq_false, List.isPrefixOf_iff_prefix] at hprefix
  obtain ⟨-, hprefix⟩ := List.cons_prefix_cons.mp hprefix
  cases host with
  | nil => simp at hprefix
  | cons d host =>
    obtain ⟨-, hhost⟩ := not_or.mp (List.mem_cons.not.mp hhost)
    rw [escapeColons, List.flatMap_cons] at hprefix
    split_ifs at hprefix with hd
    · simp at hprefix
    · obtain ⟨-, hprefix⟩ := List.cons_prefix_cons.mp hprefix
      cases host with
      | nil => simp at hprefix
      | cons e host =>
        obtain ⟨he, -⟩ := not_or.mp (List.mem_cons.not.mp hhost)
        rw [List.flatMap_cons] at hprefix
        split_ifs at hprefix with hcolon
        · simp at hprefix
        · exact he (by simpa using hprefix)

/-- The colons come back. -/
theorem replaceFrom_escapeColons {host : List Char} (hhost : 'A' ∉ host) :
    replaceFrom ['%', '3', 'A'] [':'] 0 (escapeColons host) = host := by
  induction host with
  | nil => rfl
  | cons c host ih =>
    obtain ⟨-, hrest⟩ := not_or.mp (List.mem_cons.not.mp hhost)
    rw [escapeColons, List.flatMap_cons]
    split_ifs with hc
    · subst hc
      exact congrArg (':' :: ·) (ih hrest)
    · rw [List.singleton_append, replaceFrom, isPrefixOf_escapeColons hrest,
        if_neg Bool.false_ne_true, ih hrest]

/-- A text in lower case has no capitals. -/
theorem capital_notMem_toLower (host : List Char) : 'A' ∉ host.map Char.toLower := by
  intro hmem
  obtain ⟨c, -, hc⟩ := List.mem_map.mp hmem
  replace hc : dite (c.val ≥ 'A'.val ∧ c.val ≤ 'Z'.val) _ (fun _ => c) = 'A' := hc
  split at hc
  · rename_i hupper
    have hval := congrArg Char.toNat hc
    simp only [Char.toNat, ge_iff_le, UInt32.le_iff_toNat_le, UInt32.toNat_add] at hval hupper
    change (c.val.toNat + 32) % 2 ^ 32 = 65 at hval
    have hlow : 65 ≤ c.val.toNat := hupper.1
    have hhigh : c.val.toNat ≤ 90 := hupper.2
    omega
  · rename_i hupper
    subst hc
    exact hupper (by decide)

/-- A host of an origin has something in it. -/
theorem originHost_ne_nil {origin host : String}
    (h : originHost origin = .ok host) : host.toList ≠ [] := by
  obtain ⟨rest, -, h⟩ := bind_eq_ok.mp h
  obtain ⟨hnot, h⟩ := guard_eq_ok.mp h
  rw [← Except.ok.inj h]
  exact fun hempty => hnot (.inl hempty)

/-- The host of an origin's DID, without capitals. -/
abbrev lowerHost (host : String) : List Char := host.toList.map Char.toLower

/-- The DID of an origin is `did:web:` and the host of the origin, lowered and with its colons
escaped. -/
theorem didFromOrigin_eq_ok {origin did : String} : didFromOrigin origin = .ok did ↔
    ∃ host, originHost origin = .ok host ∧
      did = "did:web:" ++ String.ofList (escapeColons (lowerHost host)) := by
  rw [didFromOrigin, bind_eq_ok]
  refine exists_congr fun host => and_congr_right fun _ => ?_
  have hescaped : replaceChar ':' "%3A" (toAsciiLowercase host) =
      String.ofList (escapeColons (lowerHost host)) := by
    simp only [replaceChar, toAsciiLowercase, String.toList_ofList]
    rfl
  rw [pure_eq_ok, hescaped, eq_comm]

/-- The URL of the document of a host's DID. -/
theorem documentUrl_escapeColons {host : String} (hhost : host.toList ≠ []) :
    documentUrl ("did:web:" ++ String.ofList (escapeColons (lowerHost host))) =
      .ok ("https://" ++ replace "%3a" ":" (toAsciiLowercase host) ++ "/.well-known/did.json") := by
  have hne : escapeColons (lowerHost host) ≠ [] := by
    obtain ⟨c, cs, hcons⟩ := List.exists_cons_of_ne_nil hhost
    rw [lowerHost, hcons, List.map_cons, escapeColons, List.flatMap_cons]
    split_ifs <;> simp
  -- an escaped host has no colon, so there is no path
  have hsplit : (escapeColons (lowerHost host)).splitOn ':' = [escapeColons (lowerHost host)] :=
    List.splitOn_eq_singleton (colon_notMem_escapeColons _)
  have hcolons : replace "%3A" ":" (String.ofList (escapeColons (lowerHost host))) =
    toAsciiLowercase host := by
    have hpat : "%3A".toList = ['%', '3', 'A'] := by decide
    have hnew : ":".toList = [':'] := by decide
    simp only [replace, String.toList_ofList, hpat, hnew]
    rw [replaceFrom_escapeColons (capital_notMem_toLower _), toAsciiLowercase]
  rw [documentUrl, stripPrefix_append, okOr_some_bind, String.toList_ofList, hsplit]
  simp only [hne, hcolons, List.not_mem_nil, ↓reduceIte]

/-- The document of an origin's DID is at that origin, over HTTPS and in lower case; a `%3a` in the
host is one more colon there. -/
theorem documentUrl_didFromOrigin {origin did : String} (h : didFromOrigin origin = .ok did) :
    ∃ host, originHost origin = .ok host ∧
      documentUrl did = .ok ("https://" ++ replace "%3a" ":" (toAsciiLowercase host) ++
        "/.well-known/did.json") := by
  obtain ⟨host, hhost, rfl⟩ := didFromOrigin_eq_ok.mp h
  exact ⟨host, hhost, documentUrl_escapeColons (originHost_ne_nil hhost)⟩

/-- The DID of a local origin with a port leads back to the host and the port. -/
theorem documentUrl_didFromOrigin_localhost :
    ∃ host, originHost "http://Localhost:8080/" = .ok host ∧
      documentUrl "did:web:localhost%3A8080" =
        .ok ("https://" ++ replace "%3a" ":" (toAsciiLowercase host) ++ "/.well-known/did.json") :=
  documentUrl_didFromOrigin (by decide +kernel)

/-- Origins have the same DID exactly when their hosts are the same up to case. -/
theorem didFromOrigin_eq_iff {origin origin' did did' : String} (h : didFromOrigin origin = .ok did)
    (h' : didFromOrigin origin' = .ok did') :
    did = did' ↔
      (originHost origin).map toAsciiLowercase = (originHost origin').map toAsciiLowercase := by
  obtain ⟨host, hhost, rfl⟩ := didFromOrigin_eq_ok.mp h
  obtain ⟨host', hhost', rfl⟩ := didFromOrigin_eq_ok.mp h'
  rw [hhost, hhost']
  simp only [Except.map, Except.ok.injEq, toAsciiLowercase,
    String.append_right_inj, String.ofList_inj]
  refine ⟨fun heq => ?_, fun heq => congrArg escapeColons heq⟩
  have hback := congrArg (replaceFrom ['%', '3', 'A'] [':'] 0) heq
  rwa [replaceFrom_escapeColons (capital_notMem_toLower _),
    replaceFrom_escapeColons (capital_notMem_toLower _)] at hback

/-- Two spellings of one local origin share the DID and the host. -/
theorem didFromOrigin_eq_iff_localhost :
    "did:web:localhost%3A8080" = "did:web:localhost%3A8080" ↔
      (originHost "http://Localhost:8080/").map toAsciiLowercase =
        (originHost "https://localhost:8080").map toAsciiLowercase :=
  didFromOrigin_eq_iff (by decide +kernel) (by decide +kernel)

end Didcomm
