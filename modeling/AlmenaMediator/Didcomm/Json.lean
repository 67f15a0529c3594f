import AlmenaMediator.Didcomm.Basic

/-!
# JSON values

`serde_json::Value` with objects as lists of members in insertion order (the workspace builds
serde_json with `preserve_order`). A number is kept as serde_json keeps it: an unsigned or negative
integer, or a float, which no code here reads and which stays a token.
-/

namespace Didcomm

/-- `serde_json::Number`. -/
inductive Number
  | unsigned (n : ℕ)
  | negative (n : ℕ)
  | float (token : String)
  deriving DecidableEq, Repr

/-- `serde_json::Value`. -/
inductive Value
  | null
  | bool (b : Bool)
  | number (n : Number)
  | string (s : String)
  | array (items : List Value)
  | object (members : List (String × Value))
  deriving Repr, Inhabited

namespace Value

mutual

/-- Equality of values is decided along their structure. -/
def decEq : (a b : Value) → Decidable (a = b)
  | null, null => isTrue rfl
  | bool a, bool b => decidable_of_iff (a = b) (by simp)
  | number a, number b => decidable_of_iff (a = b) (by simp)
  | string a, string b => decidable_of_iff (a = b) (by simp)
  | array a, array b => @decidable_of_iff _ (a = b) (by simp) (decEqItems a b)
  | object a, object b => @decidable_of_iff _ (a = b) (by simp) (decEqMembers a b)
  | null, bool _ | null, number _ | null, string _ | null, array _ | null, object _ => isFalse nofun
  | bool _, null | bool _, number _ | bool _, string _ | bool _, array _ | bool _, object _ =>
    isFalse nofun
  | number _, null | number _, bool _ | number _, string _ | number _, array _
  | number _, object _ => isFalse nofun
  | string _, null | string _, bool _ | string _, number _ | string _, array _
  | string _, object _ => isFalse nofun
  | array _, null | array _, bool _ | array _, number _ | array _, string _ | array _, object _ =>
    isFalse nofun
  | object _, null | object _, bool _ | object _, number _ | object _, string _
  | object _, array _ => isFalse nofun

/-- Equality of array items. -/
def decEqItems : (a b : List Value) → Decidable (a = b)
  | [], [] => isTrue rfl
  | [], _ :: _ | _ :: _, [] => isFalse nofun
  | a :: as, b :: bs =>
    @decidable_of_iff _ (a = b ∧ as = bs) (by simp) (@instDecidableAnd _ _ (decEq a b)
      (decEqItems as bs))

/-- Equality of object members. -/
def decEqMembers : (a b : List (String × Value)) → Decidable (a = b)
  | [], [] => isTrue rfl
  | [], _ :: _ | _ :: _, [] => isFalse nofun
  | (k, a) :: as, (l, b) :: bs =>
    @decidable_of_iff _ (k = l ∧ a = b ∧ as = bs) (by simp [and_assoc])
      (@instDecidableAnd _ _ _ (@instDecidableAnd _ _ (decEq a b) (decEqMembers as bs)))

end

instance : DecidableEq Value := decEq

/-- `Map::get`. -/
def lookup (name : String) (members : List (String × Value)) : Option Value :=
  (members.find? fun m => m.1 == name).map Prod.snd

/-- `Value::get` with a member name. -/
def get (name : String) : Value → Option Value
  | object members => lookup name members
  | _ => none

/-- `Value::as_object`. -/
def asObject : Value → Option (List (String × Value))
  | object members => some members
  | _ => none

/-- `Map::contains_key`. -/
def containsKey (name : String) (members : List (String × Value)) : Bool :=
  members.any fun m => m.1 == name

/-- `Value::is_object`. -/
def isObject (v : Value) : Bool := v.asObject.isSome

/-- `Value::as_array`. -/
def asArray : Value → Option (List Value)
  | array items => some items
  | _ => none

/-- `Value::as_str`. -/
def asStr : Value → Option String
  | string s => some s
  | _ => none

/-- `Value::as_u64`. -/
def asU64 : Value → Option ℕ
  | number (.unsigned n) => some n
  | _ => none

/-- `Value::as_bool`. -/
def asBool : Value → Option Bool
  | bool b => some b
  | _ => none

/-- `json!(n)` for an unsigned integer. -/
def ofNat (n : ℕ) : Value := number (.unsigned n)

/-- `json!(s)` for an optional string. -/
def ofOption : Option String → Value
  | some s => string s
  | none => null

/-- `value[name] = v` on an object: replaces the member, or adds it at the end. -/
def set (name : String) (v : Value) : Value → Value
  | object members =>
    if containsKey name members then
      object (members.map fun m => if m.1 == name then (name, v) else m)
    else object (members ++ [(name, v)])
  | other => other

/-! ## Maps -/

/-- `Map::insert`: replaces the member, or adds it at the end. -/
def insert (name : String) (v : Value) (members : List (String × Value)) : List (String × Value) :=
  if containsKey name members then members.map fun m => if m.1 == name then (name, v) else m
  else members ++ [(name, v)]

/-- `Map::remove` (`preserve_order` makes it `swap_remove`): the last member takes the place of the
one removed. -/
def swapRemove (name : String) : List (String × Value) → List (String × Value)
  | [] => []
  | m :: rest =>
    if m.1 == name then (rest.getLast?.toList ++ rest.dropLast) else m :: swapRemove name rest

variable {name other : String} {v : Value} {members : List (String × Value)}

/-- An object contains a key exactly when one of its members has this name. -/
theorem containsKey_iff : containsKey name members = true ↔ name ∈ members.map Prod.fst := by
  simp [containsKey]

/-- An object contains a key exactly when the key's member can be looked up. -/
theorem containsKey_eq_isSome : containsKey name members = (lookup name members).isSome := by
  simp [containsKey, lookup, List.isSome_find?]

/-- Looking a name up reads the first member of that name. -/
theorem lookup_cons {m : String × Value} :
    lookup name (m :: members) = if m.1 = name then some m.2 else lookup name members := by
  by_cases h : m.1 = name <;> simp [lookup, h]

/-- With distinct names, a member is found under its name. -/
theorem lookup_eq_some_iff (hnodup : (members.map Prod.fst).Nodup) :
    lookup name members = some v ↔ (name, v) ∈ members := by
  induction members with
  | nil => simp [lookup]
  | cons m rest ih =>
    obtain ⟨hnot, hrest⟩ := List.nodup_cons.mp hnodup
    obtain ⟨k, w⟩ := m
    rw [lookup_cons, List.mem_cons, Prod.mk.injEq]
    by_cases hk : k = name
    · subst hk
      have habsent : (k, v) ∉ rest := fun hmem =>
        hnot (List.mem_map.mpr ⟨(k, v), hmem, rfl⟩)
      simp [habsent, eq_comm]
    · simp [hk, Ne.symm hk, ih hrest]

/-- What is found depends on the members, not on their order. -/
theorem lookup_eq_of_perm {members' : List (String × Value)} (hperm : members.Perm members')
    (hnodup : (members.map Prod.fst).Nodup) : lookup name members = lookup name members' := by
  have hnodup' := (hperm.map Prod.fst).nodup_iff.mp hnodup
  apply Option.ext
  intro v
  rw [lookup_eq_some_iff hnodup, lookup_eq_some_iff hnodup', hperm.mem_iff]

/-- Replacing a member's value. -/
theorem lookup_map_replace :
    lookup other (members.map fun m => if m.1 == name then (name, v) else m) =
      if other = name then (lookup name members).map fun _ => v else lookup other members := by
  induction members with
  | nil => simp [lookup]
  | cons m rest ih =>
    rw [List.map_cons, lookup_cons, ih, lookup_cons, lookup_cons]
    by_cases hm : m.1 = name
    · by_cases ho : other = name
      · simp [hm, ho]
      · simp [hm, ho, Ne.symm ho]
    · by_cases ho : other = name
      · simp [hm, ho]
      · simp [hm, ho]

/-- A name is looked up in the first object and, where that lacks it, in the second. -/
theorem lookup_append {members' : List (String × Value)} :
    lookup name (members ++ members') = (lookup name members).or (lookup name members') := by
  simp [lookup, List.find?_append, Option.map_or]

/-- What is inserted is found. -/
theorem lookup_insert_self : lookup name (insert name v members) = some v := by
  rw [insert, containsKey_eq_isSome]
  split_ifs with h
  · obtain ⟨w, hw⟩ := Option.isSome_iff_exists.mp h
    rw [lookup_map_replace, if_pos rfl, hw]
    rfl
  · rw [lookup_append, Option.not_isSome_iff_eq_none.mp h, lookup_cons, if_pos rfl]
    rfl

/-- Inserting a member leaves the others. -/
theorem lookup_insert_of_ne (h : other ≠ name) :
    lookup other (insert name v members) = lookup other members := by
  rw [insert]
  split_ifs
  · rw [lookup_map_replace, if_neg h]
  · rw [lookup_append, lookup_cons, if_neg (Ne.symm h)]
    exact Option.or_none

/-- Inserting a new name puts the member at the end. -/
theorem insert_eq_append (hmem : name ∉ members.map Prod.fst) :
    insert name v members = members ++ [(name, v)] := by
  rw [insert, if_neg (by rwa [containsKey_iff])]

/-- Removing a member and moving the last one into its place leaves the other members, in some
order. -/
theorem swapRemove_perm : (swapRemove name members).Perm (members.eraseP fun m => m.1 == name) := by
  induction members with
  | nil => exact .nil
  | cons m rest ih =>
    rw [swapRemove, List.eraseP_cons]
    cases m.1 == name
    · exact ih.cons m
    · have hlast : rest.dropLast ++ rest.getLast?.toList = rest := by
        cases h : rest.getLast? with
        | none => simp [List.getLast?_eq_none_iff.mp h]
        | some last => exact List.dropLast_append_getLast? last h
      have hperm : (rest.getLast?.toList ++ rest.dropLast).Perm rest := by
        refine List.perm_append_comm.trans ?_
        rw [hlast]
      exact hperm

/-- Removing a member keeps the names of an object different from each other. -/
theorem nodup_swapRemove (hnodup : (members.map Prod.fst).Nodup) :
    ((swapRemove name members).map Prod.fst).Nodup := by
  rw [(swapRemove_perm.map Prod.fst).nodup_iff]
  exact hnodup.sublist (List.eraseP_sublist.map Prod.fst)

/-- Erasing the member of one name leaves the others to be looked up as before. -/
theorem lookup_eraseP_of_ne (h : other ≠ name) :
    lookup other (members.eraseP fun m => m.1 == name) = lookup other members := by
  induction members with
  | nil => rfl
  | cons m rest ih =>
    by_cases hm : m.1 = name
    · rw [List.eraseP_cons_of_pos (by simpa using hm), lookup_cons, if_neg (hm ▸ Ne.symm h)]
    · rw [List.eraseP_cons_of_neg (by simpa using hm), lookup_cons, lookup_cons, ih]

/-- Removing a member leaves the others. -/
theorem lookup_swapRemove_of_ne (hnodup : (members.map Prod.fst).Nodup) (h : other ≠ name) :
    lookup other (swapRemove name members) = lookup other members := by
  rw [lookup_eq_of_perm swapRemove_perm (nodup_swapRemove hnodup), lookup_eraseP_of_ne h]

end Value

end Didcomm
