import AlmenaMediator.Library.Transition
import Mathlib.Data.List.Sort
import Mathlib.Data.Option.Basic
import Mathlib.Logic.Function.Basic

/-!
# Agendas

Items and the time each is due, at most one for each key. Items are put on the agenda, which takes
new keys only below its capacity, and dropped; and the earliest due ones are taken, which puts them
off until a lease ends. `Step` says what each of these answers and leaves behind: it leaves no
choice (`Step.unique`), so that whatever keeps an agenda answers alike. What is on the agenda stays
until it is dropped (`Run.stays`), and what was taken is not taken again before its lease ends,
unless it is put again (`Run.leased`). `Leased` says that holders hold what is put off until their
leases end, and that no two hold an item of the same key.
-/

variable {κ α : Type*}

/-- When each item is due, by key. -/
abbrev Agenda (κ α : Type*) : Type _ := κ → Option (ℕ × α)

namespace Agenda

/-- Earlier first, ties by key. -/
def Earlier [LT κ] (a b : ℕ × κ) : Prop := a.1 < b.1 ∨ a.1 = b.1 ∧ a.2 < b.2

/-- The keys on the agenda, each once. -/
structure Keys (a : Agenda κ α) (keys : List κ) : Prop where
  nodup : keys.Nodup
  mem_iff : ∀ k, k ∈ keys ↔ (a k).isSome

/-- The agenda with nothing on it. -/
def empty : Agenda κ α := fun _ => none

/-- What is due at `now`, earliest first. -/
structure Due [LT κ] (a : Agenda κ α) (now : ℕ) (due : List (ℕ × κ)) : Prop where
  sorted : due.Pairwise Earlier
  mem_iff : ∀ d k, (d, k) ∈ due ↔ d ≤ now ∧ ∃ x, a k = some (d, x)

/-- The items under these keys. -/
def items (a : Agenda κ α) (keys : List κ) : List α := keys.filterMap fun k => (a k).map Prod.snd

/-- The agenda with these items put off until `until_`. -/
def putOff [DecidableEq κ] (a : Agenda κ α) (keys : List κ) (until_ : ℕ) : Agenda κ α :=
  fun k => if k ∈ keys then (a k).map fun e => (until_, e.2) else a k

/-- What happens to an agenda, and what it answers. -/
inductive Event (α κ : Type*)
  /-- An item is put, if its key is there or the agenda has fewer than `capacity` keys. -/
  | put (x : α) (due capacity : ℕ) (done : Bool)
  /-- Up to `limit` items due by `now` are put off until `until_`. -/
  | take (now until_ limit : ℕ) (taken : List α)
  | drop (k : κ)

section Order

variable [LinearOrder κ]

/-- The order by due time and then by key is transitive. -/
theorem earlier_trans {a b c : ℕ × κ} (h : Earlier a b) (h' : Earlier b c) : Earlier a c := by
  rcases h with h | ⟨h, hk⟩ <;> rcases h' with h' | ⟨h', hk'⟩
  · exact .inl (h.trans h')
  · exact .inl (h' ▸ h)
  · exact .inl (h ▸ h')
  · exact .inr ⟨h.trans h', hk.trans hk'⟩

/-- Nothing is due earlier than itself. -/
theorem earlier_irrefl (a : ℕ × κ) : ¬ Earlier a a := by
  rintro (h | ⟨-, h⟩)
  · exact lt_irrefl _ h
  · exact lt_irrefl _ h

/-- Of two different entries one is due earlier. -/
theorem earlier_total {a b : ℕ × κ} (h : a ≠ b) : Earlier a b ∨ Earlier b a := by
  rcases lt_trichotomy a.1 b.1 with hlt | heq | hgt
  · exact .inl (.inl hlt)
  · rcases lt_trichotomy a.2 b.2 with hlt | hkey | hgt
    · exact .inl (.inr ⟨heq, hlt⟩)
    · exact absurd (Prod.ext heq hkey) h
    · exact .inr (.inr ⟨heq.symm, hgt⟩)
  · exact .inr (.inl hgt)

/-- Two lists of the same entries, both earliest first, are the same list. -/
theorem sorted_unique {l l' : List (ℕ × κ)} (h : l.Pairwise Earlier) (h' : l'.Pairwise Earlier)
    (hmem : ∀ e, e ∈ l ↔ e ∈ l') : l = l' := by
  have hnodup : ∀ {m : List (ℕ × κ)}, m.Pairwise Earlier → m.Nodup := fun {m} hm =>
    List.Pairwise.imp (fun {a b} (hab : Earlier a b) (heq : a = b) =>
      earlier_irrefl b (heq ▸ hab)) hm
  have hperm : l.Perm l' := (List.perm_ext_iff_of_nodup (hnodup h) (hnodup h')).mpr hmem
  exact hperm.eq_of_pairwise (fun a b _ _ hab hba => absurd (earlier_trans hab hba)
    (earlier_irrefl a)) h h'

/-- Inserting in an order keeps a list sorted strictly, if the order tells the new element from
those in the list. -/
theorem pairwise_orderedInsert {β : Type*} {r R : β → β → Prop} [DecidableRel r]
    (htrans : ∀ a b c, R a b → R b c → R a c) {e : β} {l : List β} (h : l.Pairwise R)
    (hbefore : ∀ y ∈ l, r e y → R e y) (hafter : ∀ y ∈ l, ¬ r e y → R y e) :
    (l.orderedInsert r e).Pairwise R := by
  induction l with
  | nil => exact List.pairwise_singleton R e
  | cons y l ih =>
    obtain ⟨hy, hl⟩ := List.pairwise_cons.mp h
    unfold List.orderedInsert
    split
    · rename_i hle
      -- `e` goes before `y`, and so before all that follows
      have hey : R e y := hbefore y List.mem_cons_self hle
      refine List.pairwise_cons.mpr ⟨fun z hz => ?_, h⟩
      rcases List.mem_cons.mp hz with rfl | hz
      · exact hey
      · exact htrans e y z hey (hy z hz)
    · rename_i hgt
      have hrest := ih hl (fun z hz => hbefore z (List.mem_cons_of_mem y hz))
        fun z hz => hafter z (List.mem_cons_of_mem y hz)
      refine List.pairwise_cons.mpr ⟨fun z hz => ?_, hrest⟩
      rcases (List.mem_orderedInsert _).mp hz with rfl | hz
      · exact hafter y List.mem_cons_self hgt
      · exact hy z hz

/-- A stable sort by time of items in the order of their keys puts the earliest first. -/
theorem pairwise_insertionSort {key : α → κ} {l : List (ℕ × α)}
    (h : l.Pairwise fun e e' => key e.2 < key e'.2) :
    (l.insertionSort fun e e' => e.1 ≤ e'.1).Pairwise
      fun e e' => Earlier (e.1, key e.2) (e'.1, key e'.2) := by
  induction l with
  | nil => exact List.Pairwise.nil
  | cons x l ih =>
    obtain ⟨hx, hl⟩ := List.pairwise_cons.mp h
    rw [List.insertionSort_cons]
    refine pairwise_orderedInsert ?_ (ih hl) (fun y hy hle => ?_) fun y _ hgt => ?_
    · exact fun _ _ _ h h' => earlier_trans h h'
    · -- at equal times the key of `x`, below all the others, decides
      have hkey : key x.2 < key y.2 := hx y ((List.mem_insertionSort _).mp hy)
      exact (lt_or_eq_of_le hle).imp_right fun heq => ⟨heq, hkey⟩
    · exact .inl (Nat.lt_of_not_le hgt)

end Order

variable [LinearOrder κ] (key : α → κ)

/-- What an agenda answers, and the agenda after it. -/
inductive Step : Agenda κ α → Event α κ → Agenda κ α → Prop
  | put {a : Agenda κ α} {x : α} {due capacity : ℕ} {keys : List κ} (hkeys : Keys a keys)
      (hroom : key x ∈ keys ∨ keys.length < capacity) :
      Step a (.put x due capacity true) (Function.update a (key x) (some (due, x)))
  | full {a : Agenda κ α} {x : α} {due capacity : ℕ} {keys : List κ} (hkeys : Keys a keys)
      (hfull : key x ∉ keys ∧ capacity ≤ keys.length) : Step a (.put x due capacity false) a
  | take {a : Agenda κ α} {now until_ limit : ℕ} {due : List (ℕ × κ)} (hdue : Due a now due) :
      Step a (.take now until_ limit (a.items ((due.take limit).map Prod.snd)))
        (a.putOff ((due.take limit).map Prod.snd) until_)
  | drop {a : Agenda κ α} {k : κ} : Step a (.drop k) (Function.update a k none)

variable {key} {a a' b b' : Agenda κ α} {e : Event α κ} {k : κ} {keys : List κ} {now : ℕ}

omit [LinearOrder κ] in
/-- Any two lists of the keys of an agenda are of one length. -/
theorem Keys.length_eq {keys' : List κ} (h : Keys a keys) (h' : Keys a keys') :
    keys.length = keys'.length :=
  ((List.perm_ext_iff_of_nodup h.nodup h'.nodup).mpr fun k => by
    rw [h.mem_iff, h'.mem_iff]).length_eq

/-- The due entries of an agenda have one order only. -/
theorem Due.unique {due due' : List (ℕ × κ)} (h : Due a now due) (h' : Due a now due') :
    due = due' :=
  sorted_unique h.sorted h'.sorted fun e => by rw [h.mem_iff, h'.mem_iff]

/-- The key of every item is its key on the agenda. -/
def Keyed (key : α → κ) (a : Agenda κ α) : Prop := ∀ k d x, a k = some (d, x) → key x = k

/-- Asked alike, agendas answer alike and become alike. -/
theorem Step.unique {e' : Event α κ} (h : Step key a e b) (h' : Step key a e' b')
    (hasked : match e, e' with
      | .put x due capacity _, .put x' due' capacity' _ =>
        x = x' ∧ due = due' ∧ capacity = capacity'
      | .take now until_ limit _, .take now' until' limit' _ =>
        now = now' ∧ until_ = until' ∧ limit = limit'
      | .drop k, .drop k' => k = k'
      | _, _ => False) : e = e' ∧ b = b' := by
  cases h with
  -- a put is stored or finds the agenda full, and the keys settle which
  | put hkeys hroom =>
    cases h' with
    | put =>
      obtain ⟨rfl, rfl, rfl⟩ := hasked
      exact ⟨rfl, rfl⟩
    | full hkeys' hfull =>
      obtain ⟨rfl, rfl, rfl⟩ := hasked
      rw [hkeys'.mem_iff, ← hkeys.mem_iff, hkeys'.length_eq hkeys] at hfull
      exact absurd hroom (by simp [hfull.1, Nat.not_lt.mpr hfull.2])
    | _ => exact hasked.elim
  -- the same contradiction, the other way round
  | full hkeys hfull =>
    cases h' with
    | full =>
      obtain ⟨rfl, rfl, rfl⟩ := hasked
      exact ⟨rfl, rfl⟩
    | put hkeys' hroom =>
      obtain ⟨rfl, rfl, rfl⟩ := hasked
      rw [hkeys.mem_iff, ← hkeys'.mem_iff, hkeys.length_eq hkeys'] at hfull
      exact absurd hroom (by simp [hfull.1, Nat.not_lt.mpr hfull.2])
    | _ => exact hasked.elim
  | take hdue =>
    cases h' with
    | take hdue' =>
      obtain ⟨rfl, rfl, rfl⟩ := hasked
      rw [hdue.unique hdue']
      exact ⟨rfl, rfl⟩
    | _ => exact hasked.elim
  | drop =>
    cases h' with
    | drop =>
      obtain rfl := hasked
      exact ⟨rfl, rfl⟩
    | _ => exact hasked.elim

/-- An entry after the due entries are put off has the new time if it was put off, and its old time
if not. -/
theorem putOff_eq_some {keys : List κ} {until_ d : ℕ} {x : α} :
    a.putOff keys until_ k = some (d, x) ↔
      (k ∈ keys ∧ d = until_ ∧ ∃ d', a k = some (d', x)) ∨ (k ∉ keys ∧ a k = some (d, x)) := by
  unfold putOff
  split_ifs with hk
  · simp only [hk, true_and, not_true_eq_false, false_and, or_false, Option.map_eq_some_iff,
      Prod.mk.injEq, Prod.exists]
    constructor
    · rintro ⟨d', x', hx, rfl, rfl⟩
      exact ⟨rfl, d', hx⟩
    · rintro ⟨rfl, d', hx⟩
      exact ⟨d', x, hx, rfl, rfl⟩
  · simp [hk]

/-- Putting a value under its own key keeps the agenda keyed. -/
theorem Keyed.put (h : Keyed key a) (x : α) (due : ℕ) :
    Keyed key (Function.update a (key x) (some (due, x))) := by
  intro k d y hy
  by_cases hk : k = key x
  · subst hk
    obtain ⟨rfl, rfl⟩ : due = d ∧ x = y := by simpa using hy
    rfl
  · rw [Function.update_of_ne hk] at hy
    exact h k d y hy

/-- Dropping a key keeps the agenda keyed. -/
theorem Keyed.drop (h : Keyed key a) (k : κ) : Keyed key (Function.update a k none) := by
  intro k' d y hy
  by_cases hk : k' = k
  · simp [hk] at hy
  · rw [Function.update_of_ne hk] at hy
    exact h k' d y hy

/-- Putting entries off keeps the agenda keyed. -/
theorem Keyed.putOff (h : Keyed key a) (keys : List κ) (until_ : ℕ) :
    Keyed key (a.putOff keys until_) := by
  intro k d y hy
  rcases putOff_eq_some.mp hy with ⟨-, -, d', hy⟩ | ⟨-, hy⟩
  · exact h k d' y hy
  · exact h k d y hy

/-- Steps keep every item under its key. -/
theorem Step.keyed (h : Step key a e b) (hkeyed : Keyed key a) : Keyed key b := by
  cases h with
  | put => exact hkeyed.put _ _
  | full => exact hkeyed
  | take => exact hkeyed.putOff _ _
  | drop => exact hkeyed.drop _

/-- What is taken was due and on the agenda. -/
theorem Step.taken {until_ limit : ℕ} {taken : List α}
    (h : Step key a (.take now until_ limit taken) b) {x : α}
    (hx : x ∈ taken) : ∃ k d, d ≤ now ∧ a k = some (d, x) ∧ b k = some (until_, x) := by
  cases h with
  | @take _ _ _ due hdue =>
    obtain ⟨k, hk, hitem⟩ := List.mem_filterMap.mp hx
    obtain ⟨⟨d, _⟩, hmem, rfl⟩ := List.mem_map.mp hk
    obtain ⟨hnow, y, hy⟩ := (hdue.mem_iff d _).mp (List.mem_of_mem_take hmem)
    obtain rfl : y = x := by simpa [hy] using hitem
    exact ⟨_, d, hnow, hy, putOff_eq_some.mpr (.inl ⟨hk, rfl, d, hy⟩)⟩

/-- A take does not bring anything forward, and puts nothing new on the agenda. -/
theorem Step.later {until_ limit : ℕ} {taken : List α}
    (h : Step key a (.take now until_ limit taken) b) (hle : now ≤ until_) {d : ℕ} {x : α}
    (hx : b k = some (d, x)) : ∃ d', a k = some (d', x) ∧ d' ≤ d := by
  cases h with
  | @take _ _ _ due hdue =>
    rcases putOff_eq_some.mp hx with ⟨hk, rfl, d', hd'⟩ | ⟨-, hd⟩
    · obtain ⟨⟨d'', _⟩, hmem, rfl⟩ := List.mem_map.mp hk
      obtain ⟨hnow, y, hy⟩ := (hdue.mem_iff d'' _).mp (List.mem_of_mem_take hmem)
      obtain ⟨rfl, rfl⟩ := Prod.mk.inj (Option.some.inj (hy.symm.trans hd'))
      exact ⟨d'', hd', hnow.trans hle⟩
    · exact ⟨d, hd, le_rfl⟩

/-- A take changes nothing else. -/
theorem Step.take_other {until_ limit : ℕ} {taken : List α}
    (h : Step key a (.take now until_ limit taken) b) (hkeyed : Keyed key a)
    (hnot : ∀ x ∈ taken, key x ≠ k) : b k = a k := by
  cases h with
  | @take _ _ _ due hdue =>
    refine if_neg fun hk => ?_
    obtain ⟨⟨d, _⟩, hmem, rfl⟩ := List.mem_map.mp hk
    obtain ⟨-, x, hx⟩ := (hdue.mem_iff d _).mp (List.mem_of_mem_take hmem)
    exact hnot x (List.mem_filterMap.mpr ⟨_, hk, by simp [hx]⟩) (hkeyed _ d x hx)

/-! ## What stays -/

/-- What is on the agenda stays there until it is dropped. -/
theorem Step.stays (h : Step key a e b) (hk : (a k).isSome)
    (hdrop : e ≠ .drop k) : (b k).isSome := by
  cases h with
  | @put y due capacity keys _ _ =>
    by_cases hkey : k = key y
    · simp [hkey]
    · rwa [Function.update_of_ne hkey]
  | full => exact hk
  | take =>
    unfold putOff
    split <;> simpa using hk
  | @drop k' =>
    have hne : k ≠ k' := fun hk => hdrop (congrArg _ hk.symm)
    rwa [Function.update_of_ne hne]

/-- A step puts an item off, or leaves it alone, unless it puts an item under its key. -/
theorem Step.not_sooner (h : Step key a e b) {t : ℕ} (hlate : ∀ d x, a k = some (d, x) → t ≤ d)
    (hput : ∀ x due capacity, e = .put x due capacity true → key x ≠ k)
    (htake : ∀ now until_ limit taken, e = .take now until_ limit taken → now ≤ until_) :
    ∀ d x, b k = some (d, x) → t ≤ d := by
  intro d x hx
  cases h with
  | @put y due capacity keys _ _ =>
    have hne : k ≠ key y := fun hk => hput y due capacity rfl hk.symm
    rw [Function.update_of_ne hne] at hx
    exact hlate d x hx
  | full => exact hlate d x hx
  -- only what was due is put off, and it is put off to a time that is not before `now`
  | @take _ _ _ due hdue =>
    rcases putOff_eq_some.mp hx with ⟨hkey, rfl, d', hx⟩ | ⟨-, hx⟩
    · obtain ⟨⟨d'', _⟩, hmem, rfl⟩ := List.mem_map.mp hkey
      obtain ⟨hnow, y, hy⟩ := (hdue.mem_iff d'' _).mp (List.mem_of_mem_take hmem)
      exact (hlate d'' y hy).trans (hnow.trans (htake _ _ _ _ rfl))
    · exact hlate d x hx
  | @drop k' =>
    by_cases hk : k = k'
    · simp [hk] at hx
    · rw [Function.update_of_ne hk] at hx
      exact hlate d x hx

/-- What is on the agenda is there as long as it is not dropped. -/
theorem Run.stays {events : List (Event α κ)} (h : Transition.Run (Step key) a events b)
    (hk : (a k).isSome) (hdrop : .drop k ∉ events) : (b k).isSome := by
  induction h with
  | nil => exact hk
  | @snoc events b b' e _ hstep ih =>
    rw [List.mem_append, not_or, List.mem_singleton] at hdrop
    exact hstep.stays (ih hdrop.1) (Ne.symm hdrop.2)

/-- Steps keep every item under its key, along a run. -/
theorem Run.keyed {events : List (Event α κ)} (h : Transition.Run (Step key) a events b)
    (hkeyed : Keyed key a) : Keyed key b :=
  h.invariant hkeyed fun _ _ _ hkeyed hstep => hstep.keyed hkeyed

/-- Time spans of takes are not negative. -/
def Forward (events : List (Event α κ)) : Prop :=
  ∀ now until_ limit taken, .take now until_ limit taken ∈ events → now ≤ until_

/-- Along a run an item is put off, or left alone, unless an item is put under its key. -/
theorem Run.not_sooner {events : List (Event α κ)} {t : ℕ}
    (h : Transition.Run (Step key) a events b) (hforward : Forward events)
    (hput : ∀ x due capacity, .put x due capacity true ∈ events → key x ≠ k)
    (hlate : ∀ d x, a k = some (d, x) → t ≤ d) : ∀ d x, b k = some (d, x) → t ≤ d := by
  induction h with
  | nil => exact hlate
  | @snoc events c c' e _ hstep ih =>
    have hbefore := ih (fun _ _ _ _ hmem => hforward _ _ _ _ (List.mem_append_left _ hmem))
      fun _ _ _ hmem => hput _ _ _ (List.mem_append_left _ hmem)
    have hlast : e ∈ events ++ [e] := List.mem_append_right _ (List.mem_singleton_self _)
    refine hstep.not_sooner hbefore (fun z due capacity he => ?_)
      fun now until_ limit taken he => ?_
    · exact hput z due capacity (by rw [← he]; exact hlast)
    · exact hforward now until_ limit taken (by rw [← he]; exact hlast)

/-- What was taken is not taken again before its lease ends, unless it is put again. -/
theorem Run.leased {until_ limit until' limit' now' : ℕ} {taken taken' : List α}
    {events : List (Event α κ)} {c c' : Agenda κ α} (hkeyed : Keyed key a)
    (htake : Step key a (.take now until_ limit taken) b) (h : Transition.Run (Step key) b events c)
    (hforward : Forward events)
    (htake' : Step key c (.take now' until' limit' taken') c') {x y : α} (hx : x ∈ taken)
    (hput : ∀ z due capacity, .put z due capacity true ∈ events → key z ≠ key x)
    (hsoon : now' < until_) (hy : y ∈ taken') : key y ≠ key x := by
  obtain ⟨k, d, -, hbefore, hafter⟩ := htake.taken hx
  obtain rfl : key x = k := hkeyed k d x hbefore
  -- until the second take, the item is due no sooner than its lease ends
  have hlate : ∀ d y, c (key x) = some (d, y) → until_ ≤ d := by
    refine Run.not_sooner h hforward hput fun d y hy => ?_
    obtain ⟨rfl, -⟩ : until_ = d ∧ x = y := by simpa [hafter] using hy
    exact le_rfl
  obtain ⟨k', d', hdue, hc, -⟩ := htake'.taken hy
  obtain rfl : key y = k' := Run.keyed h (htake.keyed hkeyed) k' d' y hc
  intro heq
  have := hlate d' y (by rw [← heq]; exact hc)
  omega

/-! ## Leases -/

/-- A key is due once. -/
theorem Due.keys_nodup {due : List (ℕ × κ)} (h : Due a now due) : (due.map Prod.snd).Nodup := by
  rw [List.nodup_iff_pairwise_ne, List.pairwise_map]
  refine h.sorted.imp_of_mem fun {e e'} he he' hearlier heq => ?_
  obtain ⟨-, x, hx⟩ := (h.mem_iff e.1 e.2).mp he
  obtain ⟨-, y, hy⟩ := (h.mem_iff e'.1 e'.2).mp he'
  have htime : e.1 = e'.1 := by
    rw [heq, hy] at hx
    exact (congrArg Prod.fst (Option.some_inj.mp hx)).symm
  rw [Prod.ext htime heq] at hearlier
  exact earlier_irrefl e' hearlier

/-- No two of the items taken have the same key. -/
theorem Step.taken_nodup {until_ limit : ℕ} {taken : List α} (hkeyed : Keyed key a)
    (h : Step key a (.take now until_ limit taken) b) : (taken.map key).Nodup := by
  cases h with
  | @take _ _ _ due hdue =>
    have hkeys : (((due.take limit).map Prod.snd)).Nodup :=
      hdue.keys_nodup.sublist ((List.take_sublist limit due).map Prod.snd)
    refine hkeys.sublist ?_
    -- the item under a key has that key
    generalize (due.take limit).map Prod.snd = keys
    induction keys with
    | nil => exact List.Sublist.refl _
    | cons k keys ih =>
      unfold items at ih ⊢
      rw [List.filterMap_cons]
      cases hk : a k with
      | none => exact ih.trans (List.sublist_cons_self _ _)
      | some e =>
        rw [Option.map_some, List.map_cons, hkeyed k e.1 e.2 hk]
        exact ih.cons_cons k

section Leases

variable {ι : Type*} [DecidableEq ι]

/-- Holders of items that are put off until their leases end. No two hold an item of the same
key. -/
structure Leased (key : α → κ) (a : Agenda κ α) (held : ι → List α) (leaseEnd : ι → ℕ) : Prop where
  entry : ∀ i, ∀ x ∈ held i, a (key x) = some (leaseEnd i, x)
  nodup : ∀ i, ((held i).map key).Nodup
  apart : ∀ i j, i ≠ j → ∀ x ∈ held i, ∀ y ∈ held j, key x ≠ key y

variable {held : ι → List α} {leaseEnd : ι → ℕ} {i : ι}

omit [LinearOrder κ] in
/-- A holder may let go of items, which may then leave the agenda or be put anew. -/
theorem Leased.letGo (h : Leased key a held leaseEnd) {left : List α} {t : ℕ}
    (hleft : left.Sublist (held i)) (hend : left = [] ∨ t = leaseEnd i)
    (hsame : ∀ k, a' k ≠ a k → ∃ x ∈ held i, key x = k ∧ k ∉ left.map key) :
    Leased key a' (Function.update held i left) (Function.update leaseEnd i t) := by
  have hheld : ∀ j, ∀ x ∈ Function.update held i left j, x ∈ held j := by
    intro j x hx
    by_cases hj : j = i
    · subst hj
      rw [Function.update_self] at hx
      exact hleft.subset hx
    · rwa [Function.update_of_ne hj] at hx
  constructor
  case entry =>
    intro j x hx
    have hbefore := h.entry j x (hheld j x hx)
    -- what changed on the agenda was let go
    have hkept : a' (key x) = a (key x) := by
      by_contra hne
      obtain ⟨y, hy, hkey, hnot⟩ := hsame _ hne
      by_cases hj : j = i
      · subst hj
        rw [Function.update_self] at hx
        exact hnot (List.mem_map_of_mem hx)
      · exact h.apart j i hj x (hheld j x hx) y hy hkey.symm
    rw [hkept, hbefore]
    by_cases hj : j = i
    · subst hj
      rw [Function.update_self] at hx ⊢
      rcases hend with rfl | rfl
      · exact absurd hx List.not_mem_nil
      · rfl
    · rw [Function.update_of_ne hj]
  case nodup =>
    intro j
    by_cases hj : j = i
    · subst hj
      rw [Function.update_self]
      exact (h.nodup j).sublist (hleft.map key)
    · rw [Function.update_of_ne hj]
      exact h.nodup j
  case apart =>
    exact fun j j' hne x hx y hy => h.apart j j' hne x (hheld j x hx) y (hheld j' y hy)

/-- A holder of nothing may take what is due, if no lease of another has ended. -/
theorem Leased.take {until_ limit : ℕ} {taken : List α} (h : Leased key a held leaseEnd)
    (hkeyed : Keyed key a) (hstep : Step key a (.take now until_ limit taken) b)
    (hnone : held i = []) (hcurrent : ∀ j, j ≠ i → held j ≠ [] → now < leaseEnd j) :
    Leased key b (Function.update held i taken) (Function.update leaseEnd i until_) := by
  -- what others hold is not due yet, so that it is neither taken nor put off
  have hothers : ∀ j, j ≠ i → ∀ x ∈ held j, ∀ y ∈ taken, key y ≠ key x := by
    intro j hj x hx y hy hkey
    have hlate := hcurrent j hj (List.ne_nil_of_mem hx)
    obtain ⟨k, d, hdue, hbefore, -⟩ := hstep.taken hy
    obtain rfl : key y = k := hkeyed k d y hbefore
    rw [hkey, h.entry j x hx] at hbefore
    have htime : leaseEnd j = d := congrArg Prod.fst (Option.some_inj.mp hbefore)
    omega
  constructor
  case entry =>
    intro j x hx
    by_cases hj : j = i
    · subst hj
      rw [Function.update_self] at hx ⊢
      obtain ⟨k, d, -, hbefore, hafter⟩ := hstep.taken hx
      obtain rfl := hkeyed k d x hbefore
      exact hafter
    · rw [Function.update_of_ne hj] at hx ⊢
      rw [hstep.take_other hkeyed (hothers j hj x hx)]
      exact h.entry j x hx
  case nodup =>
    intro j
    by_cases hj : j = i
    · subst hj
      rw [Function.update_self]
      exact hstep.taken_nodup hkeyed
    · rw [Function.update_of_ne hj]
      exact h.nodup j
  case apart =>
    intro j j' hne x hx y hy
    by_cases hj : j = i
    · subst hj
      rw [Function.update_self] at hx
      rw [Function.update_of_ne hne.symm] at hy
      exact hothers j' hne.symm y hy x hx
    · rw [Function.update_of_ne hj] at hx
      by_cases hj' : j' = i
      · subst hj'
        rw [Function.update_self] at hy
        exact (hothers j hj x hx y hy).symm
      · rw [Function.update_of_ne hj'] at hy
        exact h.apart j j' hne x hx y hy

end Leases

/-! ## Runs from nothing -/

/-- The events lead from the empty agenda to this one. -/
def Reaches (key : α → κ) (events : List (Event α κ)) (a : Agenda κ α) : Prop :=
  Transition.Run (Step key) empty events a

/-- What a history of an agenda is like. -/
structure Kept (key : α → κ) (events : List (Event α κ)) : Prop where
  /-- A new key is put only while there are fewer than `capacity`. -/
  capped : ∀ before x due capacity after, events = before ++ .put x due capacity true :: after →
    ∃ a keys, Reaches key before a ∧ Keys a keys ∧ (key x ∈ keys ∨ keys.length < capacity)
  /-- What is taken are the first `limit` of the due items, earliest first. -/
  earliest : ∀ before now until_ limit taken after,
    events = before ++ .take now until_ limit taken :: after →
    ∃ a due, Reaches key before a ∧ Due a now due ∧
      taken = a.items ((due.take limit).map Prod.snd) ∧ taken.length ≤ limit
  /-- What is taken is not taken again before its lease ends, unless it is put again. -/
  leased : ∀ before now until_ limit taken between now' until' limit' taken' after,
    events = before ++ .take now until_ limit taken ::
      (between ++ .take now' until' limit' taken' :: after) → now' < until_ →
    ∀ x ∈ taken, (∀ z due capacity, .put z due capacity true ∈ between → key z ≠ key x) →
      ∀ y ∈ taken', key y ≠ key x
  /-- What was put is there until it is dropped. -/
  stays : ∀ before x due capacity after, events = before ++ .put x due capacity true :: after →
    .drop (key x) ∉ after → ∃ a, Reaches key events a ∧ (a (key x)).isSome

omit [LinearOrder κ] in
/-- The empty agenda is keyed. -/
theorem keyed_empty : Keyed key (empty : Agenda κ α) := fun _ _ _ h => nomatch h

/-- Every history of an agenda is like that. -/
theorem Reaches.kept {events : List (Event α κ)} (h : Reaches key events a)
    (hforward : Forward events) : Kept key events := by
  constructor
  case capped =>
    rintro before x due capacity after rfl
    obtain ⟨b, c, hbefore, hstep, -⟩ := h.middle_inv
    cases hstep with
    | put hkeys hroom => exact ⟨b, _, hbefore, hkeys, hroom⟩
  case earliest =>
    rintro before now until_ limit taken after rfl
    obtain ⟨b, c, hbefore, hstep, -⟩ := h.middle_inv
    cases hstep with
    | @take _ _ _ due hdue =>
      have hlength : (b.items ((due.take limit).map Prod.snd)).length ≤ limit :=
        calc (b.items ((due.take limit).map Prod.snd)).length
            ≤ ((due.take limit).map Prod.snd).length := List.length_filterMap_le _ _
          _ = (due.take limit).length := List.length_map _
          _ ≤ limit := List.length_take_le limit due
      exact ⟨b, due, hbefore, hdue, rfl, hlength⟩
  -- between two takes the lease stands, unless the entry is put anew or its time comes
  case leased =>
    rintro before now until_ limit taken between now' until' limit' taken' after rfl hsoon x hx hput
    obtain ⟨b, c, hbefore, hstep, hrest⟩ := h.middle_inv
    obtain ⟨b', c', hbetween, hstep', -⟩ := hrest.middle_inv
    have hforward' : Forward between := fun _ _ _ _ hmem =>
      hforward _ _ _ _ (List.mem_append_right _ (List.mem_cons_of_mem _
        (List.mem_append_left _ hmem)))
    exact fun y hy => Run.leased (Run.keyed hbefore keyed_empty) hstep hbetween hforward' hstep' hx
      hput hsoon hy
  case stays =>
    rintro before x due capacity after rfl hdrop
    obtain ⟨b, c, hbefore, hstep, hafter⟩ := h.middle_inv
    have hput : (c (key x)).isSome := by
      cases hstep with
      | put => simp
    exact ⟨a, h, Run.stays hafter hput hdrop⟩

end Agenda
