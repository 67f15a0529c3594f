import AlmenaMediator.Dispatch.Loopback
import AlmenaMediator.Dispatch.Protocols
import AlmenaMediator.Library.Glob
import Mathlib.Data.List.Infix

/-!
# What Discover Features discloses

The matcher of `discover_features` goes through a pattern star by star and tries every place where
the value may go on. The induction is on the pattern, at its first star.

## Main results

* `matchesPattern_iff`: a value matches if and only if it is the pattern with its stars replaced;
* `mem_disclosuresOf`: what one query is answered;
* `discoverFeatures_exact`: a body is refused exactly if it is malformed, and else exactly the
  features that some query asks for are disclosed.
-/

namespace Dispatch

open Didcomm

/-! ## Patterns -/

/-- A beginning can be stripped exactly where the text begins with it. -/
theorem stripStart_eq_some {α : Type} [DecidableEq α] {start text tail : List α} :
    stripStart start text = some tail ↔ text = start ++ tail := by
  induction start generalizing text with
  | nil => simp [stripStart, eq_comm]
  | cons a start ih =>
    cases text with
    | nil => simp [stripStart]
    | cons b text =>
      rw [stripStart]
      split_ifs with hab
      · subst hab
        simp [ih]
      · simp [Ne.symm hab]

/-- Without a star the pattern is compared. -/
theorem matchesPieces_splitOn_of_notMem {pattern : List Char} (hpattern : '*' ∉ pattern)
    (value : List Char) : matchesPieces (pattern.splitOn '*') value = (pattern == value) := by
  rw [List.splitOn_eq_singleton hpattern, matchesPieces]

/-- At the first star the value has to go on with what is before it, and any tail may match the
rest. -/
theorem matchesPieces_splitOn_star {start rest : List Char} (hstart : '*' ∉ start)
    (value : List Char) : matchesPieces ((start ++ '*' :: rest).splitOn '*') value =
      (stripStart start value).any fun tail =>
        tail.tails.any (matchesPieces (rest.splitOn '*')) := by
  have hnot : ∀ c ∈ start, (c == '*') = false := by
    intro c hc
    rw [beq_eq_false_iff_ne]
    exact fun h => hstart (h ▸ hc)
  have hsplit : (start ++ '*' :: rest).splitOn '*' = start :: rest.splitOn '*' :=
    List.splitOnP_append_cons_of_forall_mem hnot '*' rfl rest
  obtain ⟨piece, pieces, hpieces⟩ := List.exists_cons_of_ne_nil (List.splitOn_ne_nil '*' rest)
  rw [hsplit, hpieces, matchesPieces]
  exact nofun

/-- A value matches a pattern if and only if it is the pattern with each star replaced by some
text. -/
theorem matchesPieces_iff (pattern value : List Char) :
    matchesPieces (pattern.splitOn '*') value = true ↔ Glob.Matches '*' pattern value := by
  -- on the length of the pattern, which a star cuts
  induction hlength : pattern.length using Nat.strongRecOn generalizing pattern value with
  | ind n ih =>
    by_cases hstar : '*' ∈ pattern
    · obtain ⟨start, rest, rfl, hstart⟩ := List.eq_append_cons_of_mem hstar
      have hshorter : rest.length < n := by
        rw [← hlength, List.length_append, List.length_cons]
        omega
      rw [matchesPieces_splitOn_star hstart, Glob.matches_append_star hstart]
      simp only [Option.any_eq_true, stripStart_eq_some, List.any_eq_true, List.mem_tails,
        ih rest.length hshorter rest _ rfl]
      constructor
      · rintro ⟨behind, rfl, tail, ⟨filling, rfl⟩, hmatches⟩
        exact ⟨filling, tail, rfl, hmatches⟩
      · rintro ⟨filling, tail, rfl, hmatches⟩
        exact ⟨filling ++ tail, rfl, tail, ⟨filling, rfl⟩, hmatches⟩
    · rw [matchesPieces_splitOn_of_notMem hstar, Glob.matches_iff_eq hstar, beq_iff_eq, eq_comm]

/-- A pattern matches exactly as a glob whose star stands for any text. -/
theorem matchesPattern_iff {pattern value : String} :
    matchesPattern pattern value = true ↔ Glob.Matches '*' pattern.toList value.toList :=
  matchesPieces_iff _ _

/-! ## Disclosures -/

/-- Something the mediator can disclose. -/
structure Disclosable where
  featureType : String
  id : String
  disclosure : Value

/-- The fixed features, the push protocols of the services and the limit on messages. -/
def disclosables (maxReceiveBytes : ℕ) (push : List Store.Service) : List Disclosable :=
  (features.map fun f => ⟨f.featureType, f.id, .object
    ([("feature-type", .string f.featureType), ("id", .string f.id)] ++
      if f.roles = [] then [] else [("roles", .array (f.roles.map .string))])⟩) ++
  (push.map fun s => ⟨"protocol", trimEndSlashes (pushProtocol s), .object
    [("feature-type", .string "protocol"), ("id", .string (trimEndSlashes (pushProtocol s))),
      ("roles", .array [.string "notification-sender"])]⟩) ++
  [⟨"constraint", "max_receive_bytes", .object
    [("feature-type", .string "constraint"), ("id", .string "max_receive_bytes"),
      ("max_receive_bytes", .string (toString maxReceiveBytes))]⟩]

variable {maxReceiveBytes : ℕ} {push : List Store.Service}

/-- A query is answered with what is of its type and matches its pattern. -/
theorem mem_disclosuresOf {featureType pattern : String} {d : Value} :
    d ∈ disclosuresOf maxReceiveBytes push featureType pattern ↔
      ∃ f ∈ disclosables maxReceiveBytes push, f.disclosure = d ∧ f.featureType = featureType ∧
        matchesPattern pattern f.id := by
  simp only [disclosuresOf, disclosables, List.mem_append, List.mem_map, List.mem_filter,
    List.mem_singleton, or_and_right, exists_or]
  -- the protocols, the push services if the type is theirs, and the one constraint
  refine or_congr (or_congr ?_ ?_) ?_
  · constructor
    · rintro ⟨f, ⟨hf, hasked⟩, rfl⟩
      obtain ⟨htype, hmatches⟩ := Bool.and_eq_true_iff.mp hasked
      exact ⟨_, ⟨f, hf, rfl⟩, rfl, beq_iff_eq.mp htype, hmatches⟩
    · rintro ⟨_, ⟨f, hf, rfl⟩, rfl, htype, hmatches⟩
      exact ⟨f, ⟨hf, Bool.and_eq_true_iff.mpr ⟨beq_iff_eq.mpr htype, hmatches⟩⟩, rfl⟩
  · split_ifs with htype
    · constructor
      · intro hd
        obtain ⟨s, hs, rfl⟩ := List.mem_map.mp hd
        obtain ⟨hservice, hmatches⟩ := List.mem_filter.mp hs
        exact ⟨_, ⟨s, hservice, rfl⟩, rfl, htype.symm, hmatches⟩
      · rintro ⟨_, ⟨s, hs, rfl⟩, rfl, -, hmatches⟩
        exact List.mem_map_of_mem (List.mem_filter.mpr ⟨hs, hmatches⟩)
    · constructor
      · exact fun hd => absurd hd List.not_mem_nil
      · rintro ⟨_, ⟨s, -, rfl⟩, -, hsame, -⟩
        exact absurd hsame.symm htype
  · split_ifs with hasked
    · obtain ⟨htype, hmatches⟩ := Bool.and_eq_true_iff.mp hasked
      constructor
      · intro hd
        obtain rfl := List.mem_singleton.mp hd
        exact ⟨_, rfl, rfl, (decide_eq_true_iff.mp htype).symm, hmatches⟩
      · rintro ⟨_, rfl, rfl, -⟩
        exact List.mem_singleton_self _
    · constructor
      · exact fun hd => absurd hd List.not_mem_nil
      · rintro ⟨_, rfl, -, rfl, hmatches⟩
        exact absurd (Bool.and_eq_true_iff.mpr ⟨decide_eq_true rfl, hmatches⟩) hasked

/-! ## Requests -/

/-- A query asks for a feature: it names its type, and a pattern that the id is with each star
replaced. -/
def Asks (query : Value) (f : Disclosable) : Prop :=
  ∃ pattern, query.get "feature-type" = some (.string f.featureType) ∧
    query.get "match" = some (.string pattern) ∧ Glob.Matches '*' pattern.toList f.id.toList

/-- A query has a type and a pattern. -/
def Query (query : Value) : Prop :=
  ∃ featureType pattern, query.get "feature-type" = some (.string featureType) ∧
    query.get "match" = some (.string pattern)

/-- An optional value is read as a text exactly where it is that text. -/
theorem bind_asStr_eq_some {v : Option Value} {s : String} :
    v.bind Value.asStr = some s ↔ v = some (.string s) := by
  match v with
  | some (.string s') => simp [Value.asStr]
  | none | some .null | some (.bool _) | some (.number _) | some (.array _) | some (.object _) =>
    simp [Value.asStr]

/-- An optional value is read as a list exactly where it is that list. -/
theorem bind_asArray_eq_some {v : Option Value} {items : List Value} :
    v.bind Value.asArray = some items ↔ v = some (.array items) := by
  match v with
  | some (.array items') => simp [Value.asArray]
  | none | some .null | some (.bool _) | some (.number _) | some (.string _) | some (.object _) =>
    simp [Value.asArray]

/-- The disclosures for some queries are those for the first, which has to name a type and a
pattern, and those for the rest. -/
theorem disclosures_cons_eq_some {query : Value} {queries ds : List Value} :
    disclosures maxReceiveBytes push (query :: queries) = some ds ↔
      ∃ featureType pattern rest, query.get "feature-type" = some (.string featureType) ∧
        query.get "match" = some (.string pattern) ∧
        disclosures maxReceiveBytes push queries = some rest ∧
        ds = disclosuresOf maxReceiveBytes push featureType pattern ++ rest := by
  rw [disclosures]
  constructor
  · intro h
    obtain ⟨featureType, htype, h⟩ := Option.bind_eq_some_iff.mp h
    obtain ⟨pattern, hpattern, h⟩ := Option.bind_eq_some_iff.mp h
    obtain ⟨rest, hrest, h⟩ := Option.bind_eq_some_iff.mp h
    exact ⟨featureType, pattern, rest, bind_asStr_eq_some.mp htype, bind_asStr_eq_some.mp hpattern,
      hrest, (Option.some.inj h).symm⟩
  · rintro ⟨featureType, pattern, rest, htype, hpattern, hrest, rfl⟩
    apply Option.bind_eq_some_iff.mpr ⟨featureType, bind_asStr_eq_some.mpr htype, _⟩
    apply Option.bind_eq_some_iff.mpr ⟨pattern, bind_asStr_eq_some.mpr hpattern, _⟩
    exact Option.bind_eq_some_iff.mpr ⟨rest, hrest, rfl⟩

/-- Queries are answered exactly if all of them have a type and a pattern. -/
theorem exists_disclosures_iff {queries : List Value} :
    (∃ ds, disclosures maxReceiveBytes push queries = some ds) ↔
      ∀ query ∈ queries, Query query := by
  induction queries with
  | nil => exact ⟨fun _ query hquery => absurd hquery List.not_mem_nil, fun _ => ⟨[], rfl⟩⟩
  | cons query queries ih =>
    rw [List.forall_mem_cons, ← ih]
    constructor
    · rintro ⟨ds, h⟩
      obtain ⟨featureType, pattern, rest, htype, hpattern, hrest, -⟩ :=
        disclosures_cons_eq_some.mp h
      exact ⟨⟨featureType, pattern, htype, hpattern⟩, rest, hrest⟩
    · rintro ⟨⟨featureType, pattern, htype, hpattern⟩, rest, hrest⟩
      exact ⟨_, disclosures_cons_eq_some.mpr ⟨featureType, pattern, rest,
        htype, hpattern, hrest, rfl⟩⟩

/-- The answer to queries is what they ask for. -/
theorem mem_disclosures {queries ds : List Value}
    (h : disclosures maxReceiveBytes push queries = some ds) {d : Value} :
    d ∈ ds ↔ ∃ f ∈ disclosables maxReceiveBytes push, f.disclosure = d ∧
      ∃ query ∈ queries, Asks query f := by
  induction queries generalizing ds with
  | nil =>
    obtain rfl := Option.some.inj h
    simp
  | cons query queries ih =>
    obtain ⟨featureType, pattern, rest, htype, hpattern, hrest, rfl⟩ :=
      disclosures_cons_eq_some.mp h
    -- asking is naming the type and a pattern that matches the id
    have hasks : ∀ f : Disclosable, Asks query f ↔
        f.featureType = featureType ∧ matchesPattern pattern f.id := by
      intro f
      rw [matchesPattern_iff]
      constructor
      · rintro ⟨pattern', htype', hpattern', hmatches⟩
        obtain rfl : pattern = pattern' := by simpa [hpattern] using hpattern'
        exact ⟨by simpa [htype, eq_comm] using htype', hmatches⟩
      · rintro ⟨rfl, hmatches⟩
        exact ⟨pattern, htype, hpattern, hmatches⟩
    rw [List.mem_append, mem_disclosuresOf, ih hrest]
    constructor
    · rintro (⟨f, hf, hd, hasked⟩ | ⟨f, hf, hd, q, hq, hasked⟩)
      · exact ⟨f, hf, hd, query, List.mem_cons_self, (hasks f).mpr hasked⟩
      · exact ⟨f, hf, hd, q, List.mem_cons_of_mem query hq, hasked⟩
    · rintro ⟨f, hf, hd, q, hq, hasked⟩
      rcases List.mem_cons.mp hq with rfl | hq
      · exact .inl ⟨f, hf, hd, (hasks f).mp hasked⟩
      · exact .inr ⟨f, hf, hd, q, hq, hasked⟩

/-- A disclosure names the feature. -/
theorem get_disclosure {f : Disclosable} (hf : f ∈ disclosables maxReceiveBytes push) :
    f.disclosure.get "feature-type" = some (.string f.featureType) ∧
      f.disclosure.get "id" = some (.string f.id) := by
  simp only [disclosables, List.mem_append, List.mem_map, List.mem_singleton] at hf
  rcases hf with (⟨_, -, rfl⟩ | ⟨_, -, rfl⟩) | rfl <;> exact ⟨rfl, rfl⟩

/-- A request is refused exactly if its queries are no array of queries, and otherwise the reply
discloses exactly the features that some query asks for: a query of their type whose pattern is
their id with each star replaced by some text. -/
theorem discoverFeatures_exact {σ : Type} (surroundings : Handler Surroundings σ) (s : σ)
    (request : Message) (maxReceiveBytes : ℕ) (push : List Store.Service) :
    (((discoverFeatures request maxReceiveBytes push).run surroundings s).1 = .error .invalidBody ↔
      ¬ ∃ queries, request.body.get "queries" = some (.array queries) ∧
        ∀ query ∈ queries, Query query) ∧ ∀ queries,
          request.body.get "queries" = some (.array queries) → (∀ query ∈ queries, Query query) →
      ∃ reply ds,
        ((discoverFeatures request maxReceiveBytes push).run surroundings s).1 = .ok reply ∧
        reply.body = .object [("disclosures", .array ds)] ∧
        (∀ d ∈ ds, ∃ f ∈ disclosables maxReceiveBytes push, f.disclosure = d) ∧
        ∀ f ∈ disclosables maxReceiveBytes push,
          (f.disclosure ∈ ds ↔ ∃ query ∈ queries, Asks query f) := by
  -- Both halves turn on what the source looks up first: the array, then the answer to its queries.
  rw [discoverFeatures]
  cases hqueries : (request.body.get "queries").bind Value.asArray with
  | none =>
    have hno : ∀ queries, request.body.get "queries" ≠ some (.array queries) := by
      intro queries h
      rw [bind_asArray_eq_some.mpr h] at hqueries
      exact Option.some_ne_none _ hqueries
    exact ⟨⟨fun _ ⟨queries, h, _⟩ => hno queries h, fun _ => rfl⟩, fun queries h =>
      absurd h (hno queries)⟩
  | some given =>
    have hgiven := bind_asArray_eq_some.mp hqueries
    have hsame : ∀ queries,
        request.body.get "queries" = some (.array queries) → queries = given := by
      intro queries h
      simpa [hgiven, eq_comm] using h
    dsimp only
    cases hds : disclosures maxReceiveBytes push given with
    | none =>
      have hno : ¬ ∀ query ∈ given, Query query := by
        intro hqueries
        obtain ⟨ds, h⟩ := exists_disclosures_iff.mpr hqueries
        rw [hds] at h
        exact Option.some_ne_none ds h.symm
      refine ⟨⟨fun _ ⟨queries, h, hall⟩ => hno (hsame queries h ▸ hall), fun _ => rfl⟩, ?_⟩
      intro queries h hall
      exact absurd (hsame queries h ▸ hall) hno
    | some ds =>
      have hall : ∀ query ∈ given, Query query := exists_disclosures_iff.mp ⟨ds, hds⟩
      refine ⟨⟨fun h => ?_, fun hno => absurd ⟨given, hgiven, hall⟩ hno⟩, ?_⟩
      · simp [newMessage] at h
      · intro queries h _
        obtain rfl := hsame queries h
        refine ⟨_, ds, rfl, rfl, ?_, ?_⟩
        · intro d hd
          obtain ⟨f, hf, hdisclosure, -⟩ := (mem_disclosures hds).mp hd
          exact ⟨f, hf, hdisclosure⟩
        · intro f hf
          rw [mem_disclosures hds]
          constructor
          · rintro ⟨g, hg, hdisclosure, query, hquery, pattern, htype, hpattern, hmatches⟩
            -- Two features with one disclosure have one type and one id.
            have hnames := get_disclosure hg
            rw [hdisclosure, (get_disclosure hf).1, (get_disclosure hf).2] at hnames
            obtain ⟨htypes, hids⟩ : f.featureType = g.featureType ∧ f.id = g.id := by
              simpa using hnames
            exact ⟨query, hquery, pattern, htypes ▸ htype, hpattern, hids ▸ hmatches⟩
          · rintro ⟨query, hquery, hasks⟩
            exact ⟨f, hf, rfl, query, hquery, hasks⟩

/-- A query of the lone type `header` with a star. -/
theorem discoverFeatures_exact_headers :
    ∃ reply ds, ((discoverFeatures (Message.new "q" 0 queriesType
      (.object [("queries", .array [.object [("feature-type", .string "header"),
        ("match", .string "return*")]])])) 1 [.fcm]).run (Loopback.calm 0)
          Store.Inner.empty).1 = .ok reply ∧ reply.body = .object [("disclosures", .array ds)] ∧
      (∀ d ∈ ds, ∃ f ∈ disclosables 1 [.fcm], f.disclosure = d) ∧
      ∀ f ∈ disclosables 1 [.fcm], (f.disclosure ∈ ds ↔ ∃ query ∈ [Value.object
        [("feature-type", .string "header"), ("match", .string "return*")]], Asks query f) := by
  apply (discoverFeatures_exact (Loopback.calm 0) Store.Inner.empty _ 1 [.fcm]).2 _ rfl
  intro query hquery
  obtain rfl := List.mem_singleton.mp hquery
  exact ⟨"header", "return*", rfl, rfl⟩

end Dispatch
