import Mathlib.Data.List.Induction
import Mathlib.Data.Nat.Init

/-!
# Turns

Somebody takes a turn for some time; it may be cut to a least time since it was taken, and dropped.
`Turn` is the machine that keeps the last turn with when it lapses, `Held` says of a history that
its last turn has not lapsed, and `held_iff` that they agree. `apart_of_not_held` is the rule for
how far two turns are from each other.
-/

namespace Turns

/-- What happens to turns. -/
inductive Event
  /-- A turn is taken, for so long. -/
  | taken (now hold : ℕ)
  /-- The turn lapses this long after it was taken, if not sooner. -/
  | cut (least : ℕ)
  | dropped
  deriving DecidableEq, Repr

/-- A turn: when it was taken and when it lapses. -/
structure Turn where
  sent : ℕ
  until_ : ℕ
  deriving DecidableEq, Repr

/-- The turn lapses this long after it was taken, if not sooner. -/
def Turn.cut (turn : Turn) (least : ℕ) : Turn :=
  { turn with until_ := min turn.until_ (turn.sent + least) }

/-- Cutting a turn down never makes it longer. -/
theorem Turn.cut_until_le (turn : Turn) (least : ℕ) : (turn.cut least).until_ ≤ turn.until_ :=
  Nat.min_le_left _ _

/-- What an event makes of the last turn. -/
def after : Option Turn → Event → Option Turn
  | _, .taken now hold => some ⟨now, now + hold⟩
  | turn, .cut least => turn.map fun turn => turn.cut least
  | _, .dropped => none

/-- The last turn of a history, oldest event first. -/
def current (past : List Event) : Option Turn := past.foldl after none

/-- Before the first event there is no turn. -/
@[simp] theorem current_nil : current [] = none := rfl

/-- The turn after one more event is what the event makes of the turn before it. -/
@[simp] theorem current_snoc (past : List Event) (e : Event) :
    current (past ++ [e]) = after (current past) e := by
  simp [current]

/-- The last turn was taken at `sent`, it was not dropped, and at `now` neither its time nor a cut
is over. -/
def HeldSince (now sent : ℕ) (past : List Event) : Prop :=
  ∃ before hold cuts, past = before ++ .taken sent hold :: cuts ∧ now < sent + hold ∧
    ∀ e ∈ cuts, ∃ least, e = .cut least ∧ now < sent + least

/-- The last turn has not lapsed. -/
def Held (now : ℕ) (past : List Event) : Prop := ∃ sent, HeldSince now sent past

variable {now sent : ℕ} {past : List Event}

/-- Where an event of a history is: at its end, or in what came before the end. -/
theorem snoc_eq_append_cons {before cuts : List Event} {e e' : Event} :
    past ++ [e] = before ++ e' :: cuts ↔
      (cuts = [] ∧ past = before ∧ e = e') ∨ ∃ rest, cuts = rest ++ [e] ∧
        past = before ++ e' :: rest := by
  constructor
  · intro heq
    rcases List.eq_nil_or_concat cuts with rfl | ⟨rest, last, rfl⟩
    · obtain ⟨hpast, he⟩ := List.append_inj' heq rfl
      exact .inl ⟨rfl, hpast, List.singleton_inj.mp he⟩
    · rw [List.concat_eq_append, ← List.cons_append, ← List.append_assoc] at heq
      obtain ⟨hpast, he⟩ := List.append_inj' heq rfl
      obtain rfl := List.singleton_inj.mp he
      exact .inr ⟨rest, List.concat_eq_append, hpast⟩
  · rintro (⟨rfl, rfl, rfl⟩ | ⟨rest, rfl, rfl⟩)
    · rfl
    · simp

/-- Before the first event no turn is held. -/
theorem not_heldSince_nil : ¬ HeldSince now sent [] := by
  rintro ⟨before, hold, cuts, hpast, -⟩
  simp at hpast

/-- Right after a turn is taken the turn held is this one, until its hold is over. -/
theorem heldSince_snoc_taken {sent' hold : ℕ} :
    HeldSince now sent (past ++ [.taken sent' hold]) ↔ sent = sent' ∧ now < sent' + hold := by
  constructor
  · rintro ⟨before, hold', cuts, hpast, hnow, hcuts⟩
    rcases snoc_eq_append_cons.mp hpast with ⟨-, -, heq⟩ | ⟨rest, rfl, -⟩
    · cases heq
      exact ⟨rfl, hnow⟩
    · -- a turn is no cut
      obtain ⟨least, heq, -⟩ := hcuts (.taken sent' hold) (by simp)
      cases heq
  · rintro ⟨rfl, hnow⟩
    exact ⟨past, hold, [], rfl, hnow, by simp⟩

/-- After a cut a turn is held if it was held and the least interval since it was taken is not over.
-/
theorem heldSince_snoc_cut {least : ℕ} :
    HeldSince now sent (past ++ [.cut least]) ↔ HeldSince now sent past ∧ now < sent + least := by
  constructor
  · rintro ⟨before, hold, cuts, hpast, hnow, hcuts⟩
    rcases snoc_eq_append_cons.mp hpast with ⟨-, -, heq⟩ | ⟨rest, rfl, rfl⟩
    · cases heq
    · rw [List.forall_mem_append] at hcuts
      obtain ⟨least', heq, hleast⟩ := hcuts.2 (.cut least) (by simp)
      cases heq
      exact ⟨⟨before, hold, rest, rfl, hnow, hcuts.1⟩, hleast⟩
  · rintro ⟨⟨before, hold, cuts, rfl, hnow, hcuts⟩, hleast⟩
    refine ⟨before, hold, cuts ++ [.cut least], by
      simp, hnow, List.forall_mem_append.mpr ⟨hcuts, ?_⟩⟩
    intro e he
    exact ⟨least, List.mem_singleton.mp he, hleast⟩

/-- Right after a turn is dropped none is held. -/
theorem not_heldSince_snoc_dropped : ¬ HeldSince now sent (past ++ [.dropped]) := by
  rintro ⟨before, hold, cuts, hpast, -, hcuts⟩
  rcases snoc_eq_append_cons.mp hpast with ⟨-, -, heq⟩ | ⟨rest, rfl, -⟩
  · cases heq
  · obtain ⟨least, heq, -⟩ := hcuts .dropped (by simp)
    cases heq

/-- A turn is held exactly when the current turn was taken then and has not lapsed. -/
theorem heldSince_iff :
    HeldSince now sent past ↔ ∃ turn, current past = some turn ∧
      turn.sent = sent ∧ now < turn.until_ := by
  induction past using List.reverseRecOn with
  | nil => simp [not_heldSince_nil]
  | append_singleton past e ih =>
    cases e with
    | taken sent' hold =>
      rw [heldSince_snoc_taken, current_snoc]
      simp [after, eq_comm]
    -- a cut shortens the turn, so both bounds have to be ahead of `now`
    | cut least =>
      rw [heldSince_snoc_cut, current_snoc, ih]
      constructor
      · rintro ⟨⟨turn, hturn, rfl, hnow⟩, hleast⟩
        exact ⟨turn.cut least, by rw [hturn]; rfl, rfl, Nat.lt_min.mpr ⟨hnow, hleast⟩⟩
      · rintro ⟨turn', hturn', rfl, hnow⟩
        obtain ⟨turn, hturn, rfl⟩ := Option.map_eq_some_iff.mp hturn'
        obtain ⟨hnow, hleast⟩ := Nat.lt_min.mp hnow
        exact ⟨⟨turn, hturn, rfl, hnow⟩, hleast⟩
    | dropped =>
      rw [current_snoc]
      simp [not_heldSince_snoc_dropped, after]

/-- The machine keeps the last turn of a history. -/
theorem held_iff : Held now past ↔ ∃ turn, current past = some turn ∧ now < turn.until_ := by
  constructor
  · rintro ⟨sent, h⟩
    obtain ⟨turn, hturn, -, hnow⟩ := heldSince_iff.mp h
    exact ⟨turn, hturn, hnow⟩
  · rintro ⟨turn, hturn, hnow⟩
    exact ⟨turn.sent, heldSince_iff.mpr ⟨turn, hturn, rfl, hnow⟩⟩

/-- The last turn is over no sooner than it may be. -/
theorem apart_of_not_held {before cuts : List Event} {hold apart : ℕ}
    (h : ¬ Held now (before ++ .taken sent hold :: cuts)) (hhold : apart ≤ hold)
    (hcuts : ∀ e ∈ cuts, ∃ least, e = .cut least ∧ apart ≤ least) : sent + apart ≤ now := by
  by_contra hnow
  refine h ⟨sent, before, hold, cuts, rfl, by omega, fun e he => ?_⟩
  obtain ⟨least, heq, hleast⟩ := hcuts e he
  exact ⟨least, heq, by omega⟩

end Turns
