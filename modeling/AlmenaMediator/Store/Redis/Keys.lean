import AlmenaMediator.Store.Basic
import Mathlib.Data.Set.Function

/-!
# The keys of the Redis store

`store/redis.rs` joins fixed words, DIDs, queue ids and rate-limit keys with colons, and DIDs have
colons of their own. `Key.text_eq_text_iff` says exactly which keys are written alike: none, but for
the grant of a DID that is another DID followed by the words of one of its other keys.
-/

namespace Store.Redis

/-- A queue id that the store accepts. -/
abbrev QueueId : Type := { id : String // isQueueId id = true }

/-- What is kept for a mediation under its DID. -/
inductive Field
  | grant
  | recipients
  | queue
  | bytes
  | body (id : QueueId)
  deriving DecidableEq

/-- What comes after the DID. -/
def Field.suffix : Field → String
  | grant => ""
  | recipients => ":recipients"
  | queue => ":queue"
  | bytes => ":bytes"
  | body id => ":msg:" ++ id.val

/-- A key, by what it is for. -/
inductive Key
  | mediation (did : String) (field : Field)
  | seen
  | recipient (did : String)
  | rate (key : String) (window : ℕ)
  | devices (m : String)
  | pushSent (m : String)
  | relayDue
  | relayItems
  deriving DecidableEq

namespace Key

/-- The word a key begins with. -/
def tag : Key → String
  | mediation .. => "mediation:"
  | seen => "mediations:seen"
  | recipient _ => "recipient:"
  | rate .. => "rate:"
  | devices _ => "push:"
  | pushSent _ => "push-sent:"
  | relayDue => "relay:due"
  | relayItems => "relay:items"

/-- What comes after it. -/
def rest : Key → String
  | mediation did field => did ++ field.suffix
  | recipient did => did
  | rate key window => key ++ ":" ++ toString window
  | devices m | pushSent m => m
  | seen | relayDue | relayItems => ""

/-- The key as the store writes it. -/
def text (key : Key) : String := key.tag ++ key.rest

/-- The grant of a DID that is another DID and what that is followed by in one of its other keys. -/
def Shadows : Key → Key → Prop
  | .mediation did Field.grant, .mediation did' field => field ≠ .grant ∧ did = did' ++ field.suffix
  | _, _ => False

end Key

/-! ## After the last colon -/

/-- What is after the last colon is determined, and so is what is before it. -/
theorem append_colon_inj {a a' b b' : String} (hb : ':' ∉ b.toList) (hb' : ':' ∉ b'.toList)
    (h : a ++ ":" ++ b = a' ++ ":" ++ b') : a = a' ∧ b = b' := by
  have hlists : a.toList ++ ':' :: b.toList = a'.toList ++ ':' :: b'.toList := by
    simpa using congrArg String.toList h
  -- the text after the last colon, from behind
  have hback : ∀ {x y : List Char}, ':' ∉ y →
    (x ++ ':' :: y).reverse.takeWhile (· != ':') = y.reverse := by
    intro x y hy
    have hne : ∀ c ∈ y.reverse, (c != ':') = true := fun c hc => by
      rw [bne_iff_ne]
      rintro rfl
      exact hy (List.mem_reverse.mp hc)
    rw [List.reverse_append, List.reverse_cons, List.append_assoc, List.takeWhile_append_of_pos hne]
    simp
  have hsame : b.toList.reverse = b'.toList.reverse := by rw [← hback hb, hlists, hback hb']
  rw [List.reverse_inj] at hsame
  rw [hsame, List.append_left_inj] at hlists
  exact ⟨String.toList_inj.mp hlists, String.toList_inj.mp hsame⟩

/-- A text that reads as a decimal number has digits only. -/
theorem isDigit_of_decimal {digits : List Char}
    (h : (decimal digits).isSome) : ∀ c ∈ digits, c.isDigit := by
  rw [decimal] at h
  split_ifs at h with hdigits
  · exact List.all_eq_true.mp hdigits.2
  · cases h

/-- A queue id is decimal digits, a dash and decimal digits. -/
theorem QueueId.split (id : QueueId) :
    ∃ ms seq, id.val.toList = ms ++ '-' :: seq ∧ (decimal ms).isSome ∧ (decimal seq).isSome := by
  obtain ⟨id, h⟩ := id
  unfold isQueueId at h
  split at h
  · rename_i ms seq hsplit
    exact ⟨ms, seq, (Splitting.splitOnce_eq_some.mp hsplit).1, by simpa using h⟩
  · cases h

/-- A queue id has digits and dashes only. -/
theorem QueueId.isDigit_or_dash (id : QueueId) : ∀ c ∈ id.val.toList, c.isDigit ∨ c = '-' := by
  obtain ⟨ms, seq, hid, hms, hseq⟩ := id.split
  intro c hc
  rw [hid, List.mem_append, List.mem_cons] at hc
  rcases hc with hc | rfl | hc
  · exact .inl (isDigit_of_decimal hms c hc)
  · exact .inr rfl
  · exact .inl (isDigit_of_decimal hseq c hc)

/-- Queue ids have no other characters. -/
theorem QueueId.notMem (id : QueueId) {c : Char} (hdigit : c.isDigit = false) (hdash : c ≠ '-') :
    c ∉ id.val.toList := by
  intro hmem
  rcases id.isDigit_or_dash c hmem with h | h
  · rw [h] at hdigit
    cases hdigit
  · exact hdash h

/-- A queue id has a dash. -/
theorem QueueId.dash_mem (id : QueueId) : '-' ∈ id.val.toList := by
  obtain ⟨ms, seq, hid, -⟩ := id.split
  simp [hid]

/-! ## The parts of a mediation -/

namespace Field

/-- The words between a DID and the last colon, and those after it. -/
def words : Field → String × String
  | grant => ("", "")
  | recipients => ("", "recipients")
  | queue => ("", "queue")
  | bytes => ("", "bytes")
  | body id => (":msg", id.val)

/-- The suffix of every field but the grant is two words joined by a colon. -/
theorem suffix_eq {field : Field}
    (h : field ≠ .grant) : field.suffix = field.words.1 ++ ":" ++ field.words.2 := by
  cases field with
  | grant => exact absurd rfl h
  | body id => rfl
  | _ => rfl

/-- The last word of a field has no colon, so the last colon of a key stands before it. -/
theorem colon_notMem_words (field : Field) : ':' ∉ field.words.2.toList := by
  cases field with
  | body id => exact id.notMem (by decide) (by decide)
  | _ => decide

/-- What is after the last colon tells the fields apart. -/
theorem words_inj {field field' : Field} (h : field.words.2 = field'.words.2) : field = field' := by
  have hdash : ∀ (id : QueueId) (word : String), '-' ∉ word.toList → id.val ≠ word := by
    rintro id word hword rfl
    exact hword id.dash_mem
  cases field <;> cases field' <;> first
    | rfl
    | exact absurd h (by decide)
    | exact absurd h (hdash _ _ (by decide))
    | exact absurd h.symm (hdash _ _ (by decide))
    | exact congrArg Field.body (Subtype.ext h)

/-- Two parts other than the grant are written alike only under one DID. -/
theorem append_suffix_inj {field field' : Field} {did did' : String} (hfield : field ≠ .grant)
    (hfield' : field' ≠ .grant) (h : did ++ field.suffix = did' ++ field'.suffix) :
    did = did' ∧ field = field' := by
  rw [suffix_eq hfield, suffix_eq hfield', ← String.append_assoc,
    ← String.append_assoc, ← String.append_assoc, ← String.append_assoc] at h
  obtain ⟨hdid, hwords⟩ := append_colon_inj field.colon_notMem_words field'.colon_notMem_words h
  obtain rfl := words_inj hwords
  exact ⟨String.append_left_inj _ |>.mp hdid, rfl⟩

end Field

/-! ## Which keys are written alike -/

namespace Key

/-- Keys written alike begin with the same word. -/
theorem tag_eq_of_text_eq {key key' : Key} (h : key.text = key'.text) : key.tag = key'.tag := by
  have hlists := congrArg String.toList h
  simp only [text, String.toList_append] at hlists
  cases key <;> cases key' <;> first
    | rfl
    | (simp [tag] at hlists)

/-- The text of a number reads as that number. -/
theorem decimal_toString (n : ℕ) : decimal (toString n).toList = some n := by
  rw [Nat.toString_eq_repr, Nat.toList_repr, decimal_toDigits]

/-- The text of a number has no colon. -/
theorem colon_notMem_toString (n : ℕ) : ':' ∉ (toString n).toList := by
  intro hmem
  have hdigit := isDigit_of_decimal (by rw [decimal_toString]; rfl) _ hmem
  exact absurd hdigit (by decide)

/-- Keys of mediations with the same rest. -/
theorem shadows_of_rest_eq {did did' : String} {field field' : Field}
    (h : did ++ field.suffix = did' ++ field'.suffix) :
    mediation did field = mediation did' field' ∨
      (mediation did field).Shadows (mediation did' field') ∨
        (mediation did' field').Shadows (mediation did field) := by
  by_cases hfield : field = .grant
  · subst hfield
    replace h : did = did' ++ field'.suffix := by simpa [Field.suffix] using h
    by_cases hfield' : field' = .grant
    · subst hfield'
      left
      simpa [Field.suffix] using h
    · exact .inr (.inl ⟨hfield', h⟩)
  · by_cases hfield' : field' = .grant
    · subst hfield'
      exact .inr (.inr ⟨hfield, by simpa [Field.suffix] using h.symm⟩)
    · obtain ⟨rfl, rfl⟩ := Field.append_suffix_inj hfield hfield' h
      exact .inl rfl

/-- A grant is written like the key it shadows. -/
theorem text_eq_of_shadows {key key' : Key} (h : key.Shadows key') : key.text = key'.text := by
  unfold Shadows at h
  split at h
  · rw [text, text, rest, h.2]
    simp [rest, tag, Field.suffix]
  · exact h.elim

/-- Keys written alike are the same, or the one is the grant of a DID that is the other's DID and
what follows it. -/
theorem eq_or_shadows {key key' : Key} (h : key.text = key'.text) :
    key = key' ∨ key.Shadows key' ∨ key'.Shadows key := by
  have htag := tag_eq_of_text_eq h
  have hrest : key.rest = key'.rest := by
    rw [text, text, htag] at h
    exact (String.append_right_inj _).mp h
  cases key with
  | mediation did field =>
    cases key' with
    | mediation did' field' => exact shadows_of_rest_eq hrest
    | _ => simp [tag] at htag
  | recipient did =>
    cases key' with
    | recipient did' => exact .inl (congrArg recipient hrest)
    | _ => simp [tag] at htag
  | rate key window =>
    cases key' with
    | rate key' window' =>
      obtain ⟨rfl, hwindow⟩ := append_colon_inj (colon_notMem_toString window)
        (colon_notMem_toString window') hrest
      have hsame : some window = some window' := by
        rw [← decimal_toString, hwindow, decimal_toString]
      exact .inl (congrArg (rate key) (Option.some_inj.mp hsame))
    | _ => simp [tag] at htag
  | devices m =>
    cases key' with
    | devices m' => exact .inl (congrArg devices hrest)
    | _ => simp [tag] at htag
  | pushSent m =>
    cases key' with
    | pushSent m' => exact .inl (congrArg pushSent hrest)
    | _ => simp [tag] at htag
  | _ =>
    -- a key without a DID is the only one with its word
    cases key' <;> first
      | exact .inl rfl
      | simp [tag] at htag

/-- Which keys are written alike: the same ones, and the grant of a DID that is another DID and what
follows it in one of its other keys with just that key. -/
theorem text_eq_text_iff {key key' : Key} :
    key.text = key'.text ↔ key = key' ∨ key.Shadows key' ∨ key'.Shadows key := by
  refine ⟨eq_or_shadows, ?_⟩
  rintro (rfl | hshadows | hshadows)
  · rfl
  · exact text_eq_of_shadows hshadows
  · exact (text_eq_of_shadows hshadows).symm

example :
    (mediation "did:web:example.com:queue" .grant).text =
      (mediation "did:web:example.com" .queue).text := by
  decide

/-- No two keys are written alike, when the mediations granted are of DIDs none of which is any DID
with the words of a key at its end. -/
theorem text_injOn {dids : Set String}
    (hdids : ∀ did ∈ dids, ∀ (did' : String) (field : Field), field ≠ .grant →
      did ≠ did' ++ field.suffix) :
      Set.InjOn text {key | ∀ did, key = mediation did .grant → did ∈ dids} := by
  have hshadows : ∀ key key' : Key, (∀ did, key = mediation did .grant → did ∈ dids) →
    ¬ key.Shadows key' := by
    intro key key' hkey h
    unfold Shadows at h
    split at h
    · exact hdids _ (hkey _ rfl) _ _ h.1 h.2
    · exact h
  intro key hkey key' hkey' htext
  rcases eq_or_shadows htext with h | h | h
  · exact h
  · exact absurd h (hshadows key key' hkey)
  · exact absurd h (hshadows key' key hkey')

end Key

end Store.Redis
