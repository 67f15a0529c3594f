import AlmenaMediator.Didcomm.Did.Peer
import AlmenaMediator.Didcomm.Did.Peer4
import AlmenaMediator.Didcomm.Loopback
import AlmenaMediator.Didcomm.Transparent
import Mathlib.Data.List.Dedup

/-!
# The local resolver

`did/resolver.rs`: methods that resolve without any network. Short-form `did:peer:4` DIDs resolve
only after their long form went through the resolver, which remembers it whether or not it verifies.
A call takes the lock at most once, so that calls are steps.

## Main results

* `resolve_short`: what a short form resolves to after any calls;
* `resolve_consistent`: a DID never resolves to two documents, unless SHA-256 collides on what went
  through;
* `resolve_peer4`: the DID built for a document resolves to it, under both forms.
-/

namespace Didcomm

variable (prim : Primitives) (base58 : Base58) (toMontgomery : Bytes → Bytes)

/-- The long forms a resolver remembers, by their short form. -/
structure LocalResolver where
  peer4LongForms : List (String × String)

namespace LocalResolver

/-- `LocalResolver::new`. -/
def new : LocalResolver := ⟨[]⟩

def peer4Capacity : ℕ := 10000

def rememberPeer4 (long : String) (resolver : LocalResolver) : Result LocalResolver := do
  let short ← peer4Short long
  let map := if peer4Capacity ≤ resolver.peer4LongForms.length then [] else resolver.peer4LongForms
  pure ⟨(short, long) :: map.filter fun e => e.1 != short⟩

/-- The long form remembered for a short form. -/
def longForm (short : String) (resolver : LocalResolver) : Option String :=
  (resolver.peer4LongForms.find? fun e => e.1 == short).map Prod.snd

def resolve (did : String) (resolver : LocalResolver) : Result DidDocument × LocalResolver :=
  if startsWith did "did:key:" then (resolveKey prim base58 toMontgomery did, resolver)
  else if startsWith did "did:peer:2." then (resolvePeer2 prim base58 did, resolver)
  else match stripPrefix did "did:peer:4" with
    | some rest =>
      if containsChar rest ':' then
        match resolver.rememberPeer4 did with
        | .ok resolver => (resolvePeer4 prim base58 did did, resolver)
        | .error error => (.error error, resolver)
      else
        match resolver.longForm did with
        | some long => (resolvePeer4 prim base58 long did, resolver)
        | none => (.error (.didNotFound did), resolver)
    | none => (.error (.didNotFound did), resolver)

/-- The resolver after calls, oldest first. -/
def after (dids : List String) (resolver : LocalResolver) : LocalResolver :=
  dids.foldl (fun resolver did => (resolve prim base58 toMontgomery did resolver).2) resolver

variable {prim base58 toMontgomery} {resolver : LocalResolver} {did long short : String}

/-- The resolver after one more call is what that call makes of it. -/
theorem after_snoc (dids : List String) (did : String) :
    after prim base58 toMontgomery (dids ++ [did]) resolver =
      (resolve prim base58 toMontgomery did (after prim base58 toMontgomery dids resolver)).2 :=
  List.foldl_append

/-- A DID with a short form is a long form, for the resolver too. -/
theorem exists_rest_of_peer4Short (h : peer4Short long = .ok short) :
    startsWith long "did:key:" = false ∧ startsWith long "did:peer:2." = false ∧
      ∃ rest, stripPrefix long "did:peer:4" = some rest ∧ containsChar rest ':' := by
  obtain ⟨hstart, encoded, rfl, -⟩ := peer4Short_eq_ok.mp h
  obtain ⟨tail, htail⟩ := List.isPrefixOf_iff_prefix.mp hstart
  have hlong : (short ++ ":" ++ encoded).toList =
      "did:peer:4z".toList ++ (tail ++ ':' :: encoded.toList) := by
    simp [← htail]
  refine ⟨?_, ?_, String.ofList ('z' :: (tail ++ ':' :: encoded.toList)), ?_, ?_⟩
  · rw [startsWith, hlong]
    rfl
  · rw [startsWith, hlong]
    rfl
  · refine stripPrefix_eq_some.mpr ?_
    rw [← String.toList_inj, hlong]
    simp
  · simp [containsChar]

/-- A long form is remembered and resolved. -/
theorem resolve_of_peer4Short (h : peer4Short did = .ok short) :
    resolve prim base58 toMontgomery did resolver = (resolvePeer4 prim base58 did did,
      ⟨(short, did) :: (if peer4Capacity ≤ resolver.peer4LongForms.length then []
        else resolver.peer4LongForms).filter fun e => e.1 != short⟩) := by
  obtain ⟨hkey, hpeer2, rest, hrest, hcolon⟩ := exists_rest_of_peer4Short h
  have hremember : resolver.rememberPeer4 did = .ok
      ⟨(short, did) :: (if peer4Capacity ≤ resolver.peer4LongForms.length then []
        else resolver.peer4LongForms).filter fun e => e.1 != short⟩ :=
    bind_eq_ok.mpr ⟨short, h, rfl⟩
  simp only [resolve, hkey, hpeer2, hrest, hcolon, hremember, Bool.false_eq_true, ↓reduceIte]

/-- Nothing else changes what is remembered. -/
theorem resolve_snd_of_error {e : Error} (h : peer4Short did = .error e) :
    (resolve prim base58 toMontgomery did resolver).2 = resolver := by
  have hremember : resolver.rememberPeer4 did = .error e := by rw [rememberPeer4, h, error_bind]
  unfold resolve
  rw [hremember]
  split_ifs
  · rfl
  · rfl
  · split
    · split_ifs
      · rfl
      · split <;> rfl
    · rfl

/-- What is remembered after a call was remembered before or is the call's own long form. -/
theorem mem_resolve {e : String × String}
    (he : e ∈ (resolve prim base58 toMontgomery did resolver).2.peer4LongForms) :
    e ∈ resolver.peer4LongForms ∨ peer4Short did = .ok e.1 ∧ e.2 = did := by
  cases hshort : peer4Short did with
  | error error =>
    rw [resolve_snd_of_error hshort] at he
    exact .inl he
  | ok short =>
    rw [resolve_of_peer4Short hshort] at he
    rcases List.mem_cons.mp he with rfl | he
    · exact .inr ⟨rfl, rfl⟩
    · have hmem := List.mem_of_mem_filter he
      split at hmem
      · cases hmem
      · exact .inl hmem

/-- Every long form is filed under its short form. -/
def Filed (resolver : LocalResolver) : Prop :=
  ∀ e ∈ resolver.peer4LongForms, peer4Short e.2 = .ok e.1

/-- A call of the resolver keeps every long form filed under its own short form. -/
theorem Filed.resolve (h : resolver.Filed) (did : String) :
    (resolve prim base58 toMontgomery did resolver).2.Filed := by
  intro e he
  rcases mem_resolve he with he | ⟨hshort, hdid⟩
  · exact h e he
  · rw [hdid, hshort]

/-- The long form found for a short form is one of its long forms. -/
theorem Filed.longForm (h : resolver.Filed) (hlong : resolver.longForm short = some long) :
    peer4Short long = .ok short := by
  obtain ⟨e, he, rfl⟩ := Option.map_eq_some_iff.mp hlong
  have hshort : e.1 = short := by simpa using List.find?_some he
  exact hshort ▸ h e (List.mem_of_find?_eq_some he)

/-- What a DID resolves to depends on the resolver only for a short form it has the long form of. -/
theorem resolve_cases (did : String) :
    (∃ result, ∀ resolver : LocalResolver, (resolve prim base58 toMontgomery
      did resolver).1 = result) ∨ ∀ resolver :
      LocalResolver, (resolve prim base58 toMontgomery did resolver).1 =
        match resolver.longForm did with
        | some long => resolvePeer4 prim base58 long did
        | none => .error (.didNotFound did) := by
  by_cases hkey : startsWith did "did:key:"
  · exact .inl ⟨_, fun resolver => by rw [resolve, if_pos hkey]⟩
  by_cases hpeer2 : startsWith did "did:peer:2."
  · exact .inl ⟨_, fun resolver => by rw [resolve, if_neg hkey, if_pos hpeer2]⟩
  cases hrest : stripPrefix did "did:peer:4" with
  | none => exact .inl ⟨_, fun resolver => by rw [resolve, if_neg hkey, if_neg hpeer2, hrest]⟩
  | some rest =>
    -- a long form brings its document, a short form is looked up
    by_cases hcolon : containsChar rest ':'
    · left
      cases hshort : peer4Short did with
      | ok short => exact ⟨_, fun resolver => by rw [resolve_of_peer4Short hshort]⟩
      | error e =>
        refine ⟨.error e, fun resolver => ?_⟩
        have hremember : resolver.rememberPeer4 did = .error e := by
          rw [rememberPeer4, hshort, error_bind]
        simp only [resolve, hkey, hpeer2, hrest, hcolon, hremember, Bool.false_eq_true, ↓reduceIte]
    · right
      intro resolver
      simp only [resolve, hkey, hpeer2, hrest, hcolon, Bool.false_eq_true, ↓reduceIte]
      cases resolver.longForm did <;> rfl

/-- A short form resolves through its long form, when that is remembered. -/
theorem resolve_shortForm {rest : String} (hshort : ':' ∉ rest.toList) :
    (resolve prim base58 toMontgomery ("did:peer:4" ++ rest) resolver).1 =
      match resolver.longForm ("did:peer:4" ++ rest) with
      | some long => resolvePeer4 prim base58 long ("did:peer:4" ++ rest)
      | none => .error (.didNotFound ("did:peer:4" ++ rest)) := by
  have hkey : startsWith ("did:peer:4" ++ rest) "did:key:" = false := by
    rw [startsWith, String.toList_append]
    rfl
  have hpeer2 : startsWith ("did:peer:4" ++ rest) "did:peer:2." = false := by
    rw [startsWith, String.toList_append]
    rfl
  have hcolon : containsChar rest ':' = false := by simpa [containsChar] using hshort
  simp only [resolve, hkey, hpeer2, stripPrefix_append, hcolon, Bool.false_eq_true, ↓reduceIte]
  cases resolver.longForm ("did:peer:4" ++ rest) <;> rfl

/-! ## What is remembered -/

/-- The short forms of the long forms among DIDs. -/
def shorts (dids : List String) : List String := dids.filterMap fun did => (peer4Short did).toOption

/-- The last long form of a short form among DIDs. -/
def lastLong (short : String) (dids : List String) : Option String :=
  (dids.filter fun did => (peer4Short did).toOption == some short).getLast?

/-- The short forms of some calls are those of the long forms among them. -/
theorem mem_shorts {dids : List String} :
    short ∈ shorts dids ↔ ∃ did ∈ dids, peer4Short did = .ok short := by
  simp only [shorts, List.mem_filterMap]
  refine exists_congr fun did => and_congr_right fun _ => ?_
  cases peer4Short did <;> simp [Except.toOption]

/-- There are no more short forms than calls. -/
theorem length_dedup_shorts_le_length (dids : List String) :
    (shorts dids).dedup.length ≤ dids.length :=
  (List.dedup_sublist _).length_le.trans (List.length_filterMap_le _ _)

/-- More calls have no fewer short forms. -/
theorem length_dedup_shorts_le {dids : List String} (later : List String) :
    (shorts dids).dedup.length ≤ (shorts (dids ++ later)).dedup.length := by
  refine (List.Nodup.subperm (List.nodup_dedup _) fun short hshort => ?_).length_le
  rw [List.mem_dedup] at hshort ⊢
  rw [shorts, List.filterMap_append]
  exact List.mem_append_left _ hshort

/-- What a resolver remembers are long forms of the calls, each short form once. -/
structure Recalls (dids : List String) (resolver : LocalResolver) : Prop where
  nodup : (resolver.peer4LongForms.map Prod.fst).Nodup
  filed : resolver.Filed
  called : ∀ e ∈ resolver.peer4LongForms, e.2 ∈ dids

/-- No more is remembered than there were short forms. -/
theorem Recalls.length_le {dids : List String} (h : resolver.Recalls dids) :
    resolver.peer4LongForms.length ≤ (shorts dids).dedup.length := by
  rw [← List.length_map Prod.fst]
  refine (List.Nodup.subperm h.nodup fun short hshort => ?_).length_le
  obtain ⟨e, he, rfl⟩ := List.mem_map.mp hshort
  exact List.mem_dedup.mpr (mem_shorts.mpr ⟨e.2, h.called e he, h.filed e he⟩)

/-- The long form found for a short form was a call. -/
theorem Recalls.longForm_mem {dids : List String} (h : resolver.Recalls dids)
    (hlong : resolver.longForm short = some long) : long ∈ dids := by
  obtain ⟨e, he, rfl⟩ := Option.map_eq_some_iff.mp hlong
  exact h.called e (List.mem_of_find?_eq_some he)

/-- A call keeps what is remembered in order. -/
theorem Recalls.resolve {dids : List String} (h : resolver.Recalls dids) (did : String) :
    (resolve prim base58 toMontgomery did resolver).2.Recalls (dids ++ [did]) := by
  refine ⟨?_, h.filed.resolve did, fun e he => ?_⟩
  · cases hshort : peer4Short did with
    | error e =>
      rw [resolve_snd_of_error hshort]
      exact h.nodup
    | ok short =>
      -- the short form is filed first, and an older entry of it is dropped
      rw [resolve_of_peer4Short hshort, List.map_cons, List.nodup_cons]
      constructor
      · intro hmem
        obtain ⟨e, he, heq⟩ := List.mem_map.mp hmem
        simpa [heq] using List.of_mem_filter he
      · refine List.Nodup.sublist (List.Sublist.map _ List.filter_sublist) ?_
        split
        · exact List.nodup_nil
        · exact h.nodup
  · rcases mem_resolve he with he | ⟨-, rfl⟩
    · exact List.mem_append_left _ (h.called e he)
    · exact List.mem_append_right _ (List.mem_singleton_self _)

/-- So does any list of calls on a new resolver. -/
theorem recalls_after (dids : List String) :
    (after prim base58 toMontgomery dids new).Recalls dids := by
  induction dids using List.reverseRecOn with
  | nil => exact ⟨List.nodup_nil, (fun e he => by cases he), fun e he => by cases he⟩
  | append_singleton dids did ih =>
    rw [after_snoc]
    exact ih.resolve did

/-- The long form of another short form stays. -/
theorem longForm_insert {short' : String} :
    longForm short ⟨(short', long) :: resolver.peer4LongForms.filter fun e => e.1 != short'⟩ =
      if short' = short then some long else resolver.longForm short := by
  split_ifs with hsame
  · simp [longForm, hsame]
  · have hfind : (fun e : String × String => decide ((e.1 != short') = true ∧
        (e.1 == short) = true)) =
      fun e => e.1 == short := by
      funext e
      by_cases he : e.1 = short
      · simp [he, Ne.symm hsame]
      · simp [he]
    rw [longForm, longForm, List.find?_cons_of_neg (by simpa using hsame), List.find?_filter]
    exact congrArg (fun p => (List.find? p resolver.peer4LongForms).map Prod.snd) hfind

/-- As long as not too many short forms came up, the last long form of each is remembered. -/
theorem longForm_after {dids : List String} (hfew : (shorts dids).dedup.length < peer4Capacity) :
    (after prim base58 toMontgomery dids new).longForm short = lastLong short dids := by
  induction dids using List.reverseRecOn with
  | nil => rfl
  | append_singleton dids did ih =>
    have hbefore := (length_dedup_shorts_le [did]).trans_lt hfew
    have hroom := (@recalls_after prim base58 toMontgomery dids).length_le.trans_lt hbefore
    rw [after_snoc, lastLong, List.filter_append, List.getLast?_append]
    cases hshort : peer4Short did with
    | error e =>
      rw [resolve_snd_of_error hshort, ih hbefore]
      simp [lastLong, hshort, Except.toOption]
    | ok short' =>
      rw [resolve_of_peer4Short hshort, if_neg (by omega), longForm_insert, ih hbefore]
      by_cases hsame : short' = short <;> simp [lastLong, hshort, hsame, Except.toOption]

/-- What a short form resolves to after any calls, as long as not too many short forms came up: what
the last of its long forms resolves to under it. So one that does not verify hides the others. -/
theorem resolve_short {dids : List String} {rest : String} (hshort : ':' ∉ rest.toList)
    (hfew : (shorts dids).dedup.length < peer4Capacity) :
    (resolve prim base58 toMontgomery ("did:peer:4" ++ rest)
        (after prim base58 toMontgomery dids new)).1 =
      match lastLong ("did:peer:4" ++ rest) dids with
      | some long => resolvePeer4 prim base58 long ("did:peer:4" ++ rest)
      | none => .error (.didNotFound ("did:peer:4" ++ rest)) := by
  rw [resolve_shortForm hshort, longForm_after hfew]

/-- A second long form of one short form hides the first. -/
theorem resolve_short_hidden :
    let dids := ["did:peer:4zQm:zX", "did:peer:4zQm:zY"]
    (resolve Transparent.packages bs58 id "did:peer:4zQm"
      (after Transparent.packages bs58 id dids new)).1 =
      resolvePeer4 Transparent.packages bs58 "did:peer:4zQm:zY" "did:peer:4zQm" :=
  @resolve_short Transparent.packages bs58 id ["did:peer:4zQm:zX", "did:peer:4zQm:zY"]
    "zQm" (by decide) (by decide)

/-- The last long form of a short form, when no other one comes up after it. -/
theorem lastLong_append_cons {dids later : List String} (hshort : peer4Short long = .ok short)
    (hlater : ∀ did ∈ later, peer4Short did = .ok short → did = long) :
    lastLong short (dids ++ long :: later) = some long := by
  have hkept : ((peer4Short long).toOption == some short) = true := by
    simp [hshort, Except.toOption]
  have hrest : ∀ did ∈ later.filter fun did =>
    (peer4Short did).toOption == some short, did = long := by
    intro did hdid
    obtain ⟨hmem, hdid⟩ := List.mem_filter.mp hdid
    refine hlater did hmem ?_
    cases hresult : peer4Short did with
    | error e => simp [hresult, Except.toOption] at hdid
    | ok short' => simpa [hresult, Except.toOption] using hdid
  rw [lastLong, List.filter_append, List.filter_cons, if_pos hkept, List.getLast?_append,
    List.eq_replicate_of_mem hrest, ← List.replicate_succ, List.getLast?_replicate]
  rfl

/-- Once a long form went through, its short form resolves to the object it carries, until another
long form of it or too many short forms come up. -/
theorem resolve_shortOf [base58.Strict] {encoded : String} {obj : List (String × Value)}
    {dids later : List String} (hencodes : Encodes prim base58 encoded obj)
    (hlater : ∀ did ∈ later, peer4Short did = .ok (shortOf prim base58 encoded) →
      did = longOf prim base58 encoded)
    (hfew : (shorts (dids ++ longOf prim base58 encoded :: later)).dedup.length < peer4Capacity) :
    (resolve prim base58 toMontgomery (shortOf prim base58 encoded)
        (after prim base58 toMontgomery (dids ++ longOf prim base58 encoded :: later) new)).1 =
      DidDocument.fromJson prim base58
        (underDid (shortOf prim base58 encoded) (longOf prim base58 encoded) obj) := by
  -- the long form is longer, so it stays the other name in `alsoKnownAs`
  have hne : shortOf prim base58 encoded ≠ longOf prim base58 encoded := by
    rw [longOf, ne_eq, ← String.toList_inj]
    intro heq
    simpa using congrArg List.length heq
  have hlast := @lastLong_append_cons _ _ dids _ (peer4Short_longOf hencodes.colon_notMem) hlater
  rw [← longForm_after hfew] at hlast
  rw [shortOf, resolve_shortForm (colon_notMem_peer4Hash encoded), ← shortOf, hlast]
  exact (resolvePeer4_longOf hencodes).trans (by rw [if_neg hne])

/-! ## One document for a DID -/

/-- Two different encoded documents, one among the DIDs here and one among those there, have one
hash. -/
def Collide (prim : Primitives) (base58 : Base58) (dids dids' : List String) : Prop :=
  ∃ encoded encoded' : String, encoded ≠ encoded' ∧ longOf prim base58 encoded ∈ dids ∧
    longOf prim base58 encoded' ∈ dids' ∧ prim.sha256 (utf8 encoded) = prim.sha256 (utf8 encoded')

/-- Two long forms that verify for one short form carry encodings with one hash. -/
theorem sha256_eq_of_short [base58.Strict] {long' asDid asDid' : String} {doc doc' : DidDocument}
    (h : resolvePeer4 prim base58 long asDid = .ok doc)
    (h' : resolvePeer4 prim base58 long' asDid' = .ok doc') (hshort : peer4Short long = .ok short)
    (hshort' : peer4Short long' = .ok short) : ∃ encoded encoded' :
    String, long = longOf prim base58 encoded ∧ long' = longOf prim base58 encoded' ∧
      prim.sha256 (utf8 encoded) = prim.sha256 (utf8 encoded') := by
  obtain ⟨encoded, obj, rfl, hencodes, -⟩ := resolvePeer4_eq_ok.mp h
  obtain ⟨encoded', obj', rfl, hencodes', -⟩ := resolvePeer4_eq_ok.mp h'
  rw [peer4Short_longOf hencodes.colon_notMem, Except.ok.injEq] at hshort
  rw [peer4Short_longOf hencodes'.colon_notMem, Except.ok.injEq] at hshort'
  have hhash : peer4Hash prim base58 encoded = peer4Hash prim base58 encoded' := by
    have heq := hshort.trans hshort'.symm
    rw [shortOf, shortOf, ← String.toList_inj] at heq
    rw [← String.toList_inj]
    simpa using heq
  -- base58btc is injective on what was encoded
  have hbytes := congrArg (Multikey.decodeBase58btc base58) hhash
  rw [decode_peer4Hash, decode_peer4Hash, Except.ok.injEq] at hbytes
  exact ⟨encoded, encoded', rfl, rfl, List.cons_injective (List.cons_injective hbytes)⟩

/-- Whatever strangers made two resolvers go through before, what they answer for a DID is the same
document, as long as no document that went through the one has the SHA-256 hash of another one that
went through the other. -/
theorem resolve_consistent [base58.Strict] {dids dids' : List String} {doc doc' : DidDocument}
    (hhash : ¬ Collide prim base58 dids dids')
    (h : (resolve prim base58 toMontgomery did
      (after prim base58 toMontgomery dids new)).1 = .ok doc)
      (h' : (resolve prim base58 toMontgomery did
        (after prim base58 toMontgomery dids' new)).1 = .ok doc') : doc = doc' := by
  have hrecalls := @recalls_after prim base58 toMontgomery
  rcases @resolve_cases prim base58 toMontgomery did with ⟨result, hresult⟩ | hshort
  · rw [hresult] at h h'
    exact Except.ok.inj (h.symm.trans h')
  · rw [hshort] at h h'
    cases hlong : (after prim base58 toMontgomery dids new).longForm did with
    | none => rw [hlong] at h; cases h
    | some long =>
      cases hlong' : (after prim base58 toMontgomery dids' new).longForm did with
      | none => rw [hlong'] at h'; cases h'
      | some long' =>
        rw [hlong] at h
        rw [hlong'] at h'
        -- both long forms are among the calls, and their encodings have one hash
        obtain ⟨encoded, encoded', rfl, rfl, hsha⟩ := sha256_eq_of_short h h'
          ((hrecalls dids).filed.longForm hlong) ((hrecalls dids').filed.longForm hlong')
        have hsame : encoded = encoded' := by
          by_contra hne
          exact hhash ⟨encoded, encoded', hne, (hrecalls dids).longForm_mem hlong,
            (hrecalls dids').longForm_mem hlong', hsha⟩
        subst hsame
        exact Except.ok.inj (h.symm.trans h')

/-! ### Two documents -/

namespace Peer4Example

/-- A document with another name. -/
def named (name : String) : List (String × Value) := [("alsoKnownAs", .array [.string name])]

/-- What its DID carries. -/
def encoded (name : String) : String :=
  Multikey.encodeBase58btc bs58
    (Multikey.encodeVarint jsonCodec ++ Transparent.packages.value.toVec (.object (named name)))

/-- Its DID. -/
def longDid (name : String) : String := longOf Transparent.packages bs58 (encoded name)

def shortDid (name : String) : String := shortOf Transparent.packages bs58 (encoded name)

/-- A long form that carries nothing. -/
def stranger : String := "did:peer:4zQm:zX"

/-- Every name of the example encodes to a document that has this name. -/
theorem encodes (name : String) : Encodes Transparent.packages bs58 (encoded name) (named name) :=
  ⟨_, _, Multikey.decodeBase58btc_encodeBase58btc bs58_lawful.decode_encode _,
    Multikey.decodeVarint_encodeVarint _ (by decide), Transparent.keeps _⟩

/-- In the example a long form determines the encoded document. -/
theorem encoded_eq {name e : String} (h : longOf Transparent.packages bs58 e = longDid name) :
    e = encoded name :=
  encoded_eq_of_longOf (colon_notMem_peer4Hash (encoded name)) h

/-- No other one of these has the hash of the first document. -/
theorem not_collide : ¬ Collide Transparent.packages bs58 [longDid "did:web:a.example"]
    [stranger, longDid "did:web:b.example", longDid "did:web:a.example"] := by
  rintro ⟨e, e', hne, hmem, hmem', hsha⟩
  obtain rfl := encoded_eq (List.mem_singleton.mp hmem)
  simp only [List.mem_cons, List.not_mem_nil, or_false] at hmem'
  rcases hmem' with hstranger | hother | hsame
  · obtain rfl : e' = "zX" :=
      @encoded_eq_of_longOf Transparent.packages bs58 _ e' "zQm" "zX" (by decide) hstranger
    exact absurd hsha (by decide +kernel)
  · obtain rfl := encoded_eq hother
    exact absurd hsha (by decide +kernel)
  · exact hne (encoded_eq hsame).symm

/-- The short form resolves right after the long form. -/
theorem resolves (name : String) {dids : List String} (hfew : dids.length < 100) : ∃ doc,
    (resolve Transparent.packages bs58 id (shortDid name)
      (after Transparent.packages bs58 id (dids ++ [longDid name]) new)).1 = .ok doc := by
  have hlength := length_dedup_shorts_le_length (dids ++ [longDid name])
  rw [List.length_append, List.length_singleton] at hlength
  have hresolve := @resolve_shortOf Transparent.packages bs58 id _ _ _ dids [] (encodes name)
    (fun did hdid => by cases hdid) (hlength.trans_lt (by rw [peer4Capacity]; omega))
  exact ⟨_, hresolve.trans rfl⟩

/-- A document with a key and another name. -/
def keyed : List (String × Value) :=
  [("alsoKnownAs", .array [.string "did:web:a.example"]),
    ("verificationMethod", .array [.object [("id", .string "#key-1"), ("type", .string "Multikey"),
      ("publicKeyMultibase", .string (Multikey.encode bs58 Loopback.agreementKey))]]),
    ("keyAgreement", .array [.string "#key-1"])]

/-- The document as it is read under a DID. -/
def keyedDocument (did : String) : DidDocument where
  id := did
  alsoKnownAs := ["did:web:a.example"]
  verificationMethod := [⟨did ++ "#key-1", did, Loopback.agreementKey⟩]
  authentication := []
  assertionMethod := []
  keyAgreement := [did ++ "#key-1"]
  service := []

/-- The document of the example is read under any DID. -/
theorem fromJson_keyed (did : String) :
    DidDocument.fromJson Transparent.packages bs58
      (.object (Value.insert "id" (.string did) keyed)) = .ok (keyedDocument did) := by
  let vm := Value.object [("id", .string "#key-1"), ("type", .string "Multikey"),
    ("publicKeyMultibase", .string (Multikey.encode bs58 Loopback.agreementKey))]
  have hkey : Multikey.decode Transparent.packages bs58
    (Multikey.encode bs58 Loopback.agreementKey) =
      .ok Loopback.agreementKey := Multikey.decode_encode bs58_lawful.decode_encode rfl
  have hmethodKey : DidDocument.methodKey Transparent.packages bs58 vm =
    .ok (some Loopback.agreementKey) :=
    bind_eq_ok.mpr ⟨_, hkey, rfl⟩
  have hmethod : DidDocument.parseMethod Transparent.packages bs58 did vm =
      .ok (some ⟨did ++ "#key-1", did, Loopback.agreementKey⟩) :=
    bind_eq_ok.mpr ⟨_, rfl, bind_eq_ok.mpr ⟨_, hmethodKey, rfl⟩⟩
  have hmethods : DidDocument.parseMethods Transparent.packages bs58 did [vm] =
      .ok [⟨did ++ "#key-1", did, Loopback.agreementKey⟩] := bind_eq_ok.mpr ⟨_, hmethod, rfl⟩
  exact bind_eq_ok.mpr ⟨_, rfl, bind_eq_ok.mpr ⟨_, rfl, bind_eq_ok.mpr ⟨_, hmethods, rfl⟩⟩⟩

/-- The document is written into its DID. -/
theorem exists_peer4 (input : List (String × Value))
    (hid : ((Value.object input).get "id").isSome = false) :
    ∃ long, peer4 Transparent.packages bs58 (.object input) = .ok long :=
  ⟨_, if_neg (by rw [hid]; exact Bool.false_ne_true)⟩

/-- Its JSON is read back. -/
theorem reads (v : Value) :
    Transparent.packages.value.fromSlice (Transparent.packages.value.toVec v) = .ok v :=
  Transparent.keeps v

/-- A stranger's long form has the short form of no document. -/
theorem stranger_ne (e : String) :
    peer4Short stranger ≠ .ok (shortOf Transparent.packages bs58 e) := by
  intro h
  have hshort : Except.ok "did:peer:4zQm" = Except.ok (shortOf Transparent.packages bs58 e) :=
    Eq.trans (by decide +kernel) h
  have hhash : "zQm" = peer4Hash Transparent.packages bs58 e := by
    have htext := congrArg String.toList (Except.ok.inj hshort)
    rw [← String.toList_inj]
    simpa [shortOf] using htext
  have hdecode := @decode_peer4Hash Transparent.packages bs58 _ e
  rw [← hhash] at hdecode
  have hfirst : (Multikey.decodeBase58btc bs58 "zQm").map (List.take 1) = .ok [5] := by
    decide +kernel
  rw [hdecode] at hfirst
  cases hfirst

/-- A short form is no long form. -/
theorem shortOf_ne {e : String} :
    peer4Short (shortOf Transparent.packages bs58 e) ≠
      .ok (shortOf Transparent.packages bs58 e) := by
  intro h
  obtain ⟨-, encoded, heq, -⟩ := peer4Short_eq_ok.mp h
  have hlength := congrArg (fun text => text.toList.length) heq
  simp at hlength

end Peer4Example

open Peer4Example in
/-- In the example the short form has one document, whatever other long forms came between. -/
theorem resolve_consistent_stranger : ∃ doc doc',
    (resolve Transparent.packages bs58 id (shortDid "did:web:a.example")
        (after Transparent.packages bs58 id [longDid "did:web:a.example"] new)).1 = .ok doc ∧
      (resolve Transparent.packages bs58 id (shortDid "did:web:a.example")
        (after Transparent.packages bs58 id
          [stranger, longDid "did:web:b.example", longDid "did:web:a.example"] new)).1 = .ok doc' ∧
      doc = doc' := by
  obtain ⟨doc, h⟩ := @resolves "did:web:a.example" [] (by decide)
  obtain ⟨doc', h'⟩ := @resolves "did:web:a.example" [stranger,
    longDid "did:web:b.example"] (by simp)
  exact ⟨doc, doc', h, h', resolve_consistent not_collide h h'⟩

/-! ## The DID of a document -/

/-- The long form built for a document resolves to the document under it. Once it went through, the
short form resolves to the document under that, until another long form of it or too many short
forms come up. Each document has the other form as an alias (`DidDocument.aliases`), and one is read
exactly when the other is. -/
theorem resolve_peer4 [base58.Strict] {input : List (String × Value)}
    (hread : prim.value.fromSlice (prim.value.toVec (.object input)) = .ok (.object input))
    (h : peer4 prim base58 (.object input) = .ok long) :
    ∃ short, peer4Short long = .ok short ∧
      (∀ resolver : LocalResolver, (resolve prim base58 toMontgomery long resolver).1 =
        (DidDocument.fromJson prim base58 (.object (Value.insert "id" (.string long) input))).map
          fun doc =>
          { doc with alsoKnownAs := DidDocument.aliases short input }) ∧
      (∀ dids later, (∀ did ∈ later, peer4Short did = .ok short → did = long) →
        (shorts (dids ++ long :: later)).dedup.length < peer4Capacity →
        (resolve prim base58 toMontgomery short
            (after prim base58 toMontgomery (dids ++ long :: later) new)).1 =
          (DidDocument.fromJson prim base58 (.object (Value.insert "id" (.string short) input))).map
            fun doc =>
            { doc with alsoKnownAs := DidDocument.aliases long input }) ∧
      verdict (DidDocument.fromJson prim base58
        (.object (Value.insert "id" (.string long) input))) =
        verdict (DidDocument.fromJson prim base58
          (.object (Value.insert "id" (.string short) input))) := by
  obtain ⟨encoded, rfl, hencodes⟩ := encodes_peer4 hread h
  have hshort := @peer4Short_longOf prim base58 _ hencodes.colon_notMem
  refine ⟨_, hshort, fun resolver => ?_, fun dids later hlater hfew => ?_,
    DidDocument.verdict_fromJson_insert input⟩
  · rw [resolve_of_peer4Short hshort, resolvePeer4_longOf hencodes, if_pos rfl,
      DidDocument.fromJson_underDid]
  · rw [resolve_shortOf hencodes hlater hfew, DidDocument.fromJson_underDid]

open Peer4Example in
/-- In the example the long form resolves to the document, with its other name and the short form as
aliases. -/
theorem resolve_peer4_keyed :
    ∃ long short, peer4 Transparent.packages bs58 (.object keyed) = .ok long ∧
    (resolve Transparent.packages bs58 id long new).1 =
      .ok { keyedDocument long with alsoKnownAs := ["did:web:a.example", short] } ∧
    (resolve Transparent.packages bs58 id short
        (after Transparent.packages bs58 id [stranger, long, stranger, short, long] new)).1 =
      .ok { keyedDocument short with alsoKnownAs := ["did:web:a.example", long] } := by
  obtain ⟨long, hlong⟩ := exists_peer4 keyed rfl
  obtain ⟨e, heq, hencodes⟩ := encodes_peer4 (reads (.object keyed)) hlong
  obtain ⟨short, hshort, hfirst, hlater, -⟩ :=
    @resolve_peer4 Transparent.packages bs58 id long _ keyed (reads _) hlong
  obtain rfl : short = shortOf Transparent.packages bs58 e := by
    rw [heq, peer4Short_longOf hencodes.colon_notMem] at hshort
    exact (Except.ok.inj hshort).symm
  refine ⟨long, shortOf Transparent.packages bs58 e, hlong, ?_, ?_⟩
  · rw [hfirst, fromJson_keyed]
    rfl
  -- a foreign DID and the forms of this one are resolved in between
  · refine (hlater [stranger] [stranger, shortOf Transparent.packages bs58 e, long] ?_ ?_).trans
      (by rw [fromJson_keyed]; rfl)
    · simp only [List.forall_mem_cons]
      exact ⟨fun h => absurd h (stranger_ne e), fun h => absurd h shortOf_ne, by simp⟩
    · refine (length_dedup_shorts_le_length _).trans_lt ?_
      simp [peer4Capacity]

end LocalResolver

end Didcomm
