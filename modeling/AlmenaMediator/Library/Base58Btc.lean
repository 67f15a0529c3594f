import Mathlib.Data.Nat.Digits.Lemmas
import Mathlib.Data.List.TakeWhile

/-!
# Base58btc

Bytes are a number to base 256 that is written to base 58, most significant digit first. Zeros in
front, which the number does not show, are kept one for one. Writing to another base is stated for
any two bases (`Radix.convert`), since reading back is the same with the bases exchanged.
-/

namespace Radix

/-- Digits to base `b`, the most significant first, written to base `b'`, with as many zeros in
front. -/
def convert (b b' : ℕ) (ds : List ℕ) : List ℕ :=
  List.replicate (ds.takeWhile (· == 0)).length 0 ++
    (Nat.digits b' (Nat.ofDigits b ds.reverse)).reverse

/-- Zeros in front do not add to a number. -/
theorem ofDigits_reverse_replicate (b k : ℕ) (ds : List ℕ) :
    Nat.ofDigits b (List.replicate k 0 ++ ds).reverse = Nat.ofDigits b ds.reverse := by
  rw [List.reverse_append, List.reverse_replicate, Nat.ofDigits_append_replicate_zero]

/-- The zeros in front of digits that begin with no zero. -/
theorem takeWhile_replicate_append {k : ℕ} {ds : List ℕ} (hds : ∀ d ∈ ds.head?, d ≠ 0) :
    (List.replicate k 0 ++ ds).takeWhile (· == 0) = List.replicate k 0 := by
  have hhead : ds.takeWhile (· == 0) = [] := by
    cases ds with
    | nil => rfl
    | cons d ds => simpa using hds d rfl
  rw [List.takeWhile_append_of_pos fun d hd => by simp [List.eq_of_mem_replicate hd], hhead,
    List.append_nil]

/-- The digits of a number begin with no zero. -/
theorem head?_reverse_digits_ne_zero {b n : ℕ} : ∀ d ∈ (Nat.digits b n).reverse.head?, d ≠ 0 := by
  intro d hd
  rw [List.head?_reverse] at hd
  have hne : Nat.digits b n ≠ [] := List.ne_nil_of_mem (List.mem_of_getLast? hd)
  have hn : n ≠ 0 := Nat.digits_ne_nil_iff_ne_zero.mp hne
  rw [List.getLast?_eq_some_getLast hne, Option.mem_some_iff] at hd
  exact hd ▸ Nat.getLast_digit_ne_zero b hn

/-- Digits that were written to another base are read back. -/
theorem convert_convert {b b' : ℕ} (hb : 1 < b) {ds : List ℕ} (hds : ∀ d ∈ ds, d < b) :
    convert b' b (convert b b' ds) = ds := by
  -- the leading zeros are copied; only the rest is converted as a number
  let zeros := (ds.takeWhile (· == 0)).length
  let rest := ds.dropWhile (· == 0)
  have hsplit : ds = List.replicate zeros 0 ++ rest := by
    have hzeros : ds.takeWhile (· == 0) = List.replicate zeros 0 :=
      List.eq_replicate_of_mem fun d hd => by simpa using List.mem_takeWhile_imp hd
    rw [← hzeros]
    exact (List.takeWhile_append_dropWhile).symm
  have hrest : ∀ d ∈ rest.head?, d ≠ 0 := by
    intro d hd
    have hnot := List.head?_dropWhile_not (· == 0) ds
    rw [Option.mem_def.mp hd] at hnot
    simpa using hnot
  -- the rest begins with a digit that is not zero, so its digits are those of its value
  have hdigits : Nat.digits b (Nat.ofDigits b rest.reverse) = rest.reverse := by
    refine Nat.digits_ofDigits b hb _ (fun d hd => hds d ?_) fun hne => ?_
    · exact (List.dropWhile_sublist _).subset (List.mem_reverse.mp hd)
    · rw [List.getLast_reverse]
      exact hrest _ (List.head?_eq_some_head _)
  have hvalue : Nat.ofDigits b ds.reverse = Nat.ofDigits b rest.reverse := by
    rw [hsplit, ofDigits_reverse_replicate]
  rw [convert, convert, hvalue, takeWhile_replicate_append head?_reverse_digits_ne_zero,
    ofDigits_reverse_replicate, List.reverse_reverse, Nat.ofDigits_digits, hdigits,
    List.reverse_reverse, List.length_replicate]
  exact hsplit.symm

/-- What is written are digits. -/
theorem lt_of_mem_convert {b b' : ℕ} (hb' : 1 < b')
    {ds : List ℕ} : ∀ d ∈ convert b b' ds, d < b' := by
  intro d hd
  rcases List.mem_append.mp hd with hd | hd
  · rw [List.eq_of_mem_replicate hd]
    omega
  · exact Nat.digits_lt_base hb' (List.mem_reverse.mp hd)

end Radix

namespace Base58Btc

/-- The digits, from 0 to 57. -/
def alphabet : List Char := "123456789ABCDEFGHJKLMNPQRSTUVWXYZabcdefghijkmnopqrstuvwxyz".toList

def toChar (d : ℕ) : Char := alphabet.getD d '1'

def ofChar (c : Char) : Option ℕ := alphabet.findIdx? (· == c)

def encode (bytes : List UInt8) : String :=
  String.ofList ((Radix.convert 256 58 (bytes.map UInt8.toNat)).map toChar)

def decode (text : String) : Option (List UInt8) :=
  (text.toList.mapM ofChar).map fun ds => (Radix.convert 58 256 ds).map UInt8.ofNat

/-- The character of a base 58 digit is read back as this digit. -/
theorem ofChar_toChar {d : ℕ} (hd : d < 58) : ofChar (toChar d) = some d := by
  decide +revert

/-- A text of base 58 digits is read back digit by digit. -/
theorem mapM_ofChar_toChar {ds : List ℕ} (hds : ∀ d ∈ ds, d < 58) :
    (ds.map toChar).mapM ofChar = some ds := by
  rw [List.mapM_map]
  induction ds with
  | nil => rfl
  | cons d ds ih =>
    have hrest := ih fun d' hd' => hds d' (List.mem_cons_of_mem d hd')
    simp [ofChar_toChar (hds d List.mem_cons_self), hrest]

/-- Bytes are read back from their text. -/
theorem decode_encode (bytes : List UInt8) : decode (encode bytes) = some bytes := by
  have hdigits : ∀ d ∈ Radix.convert 256 58 (bytes.map UInt8.toNat), d < 58 :=
    Radix.lt_of_mem_convert (by norm_num)
  have hbytes : ∀ d ∈ bytes.map UInt8.toNat, d < 256 := by
    intro d hd
    obtain ⟨byte, -, rfl⟩ := List.mem_map.mp hd
    exact byte.toNat_lt
  rw [decode, encode, String.toList_ofList, mapM_ofChar_toChar hdigits, Option.map_some,
    Radix.convert_convert (by norm_num) hbytes, List.map_map]
  have hsame : UInt8.ofNat ∘ UInt8.toNat = id := funext fun byte => UInt8.ofNat_toNat
  rw [hsame, List.map_id]

/-- The alphabet has only letters and digits. -/
theorem isAlphanum_of_mem_encode {bytes : List UInt8} {c : Char} (hc : c ∈ (encode bytes).toList) :
    c.isAlphanum := by
  rw [encode, String.toList_ofList] at hc
  obtain ⟨d, hd, rfl⟩ := List.mem_map.mp hc
  have halphanum : ∀ d < 58, (toChar d).isAlphanum := by decide
  exact halphanum d (Radix.lt_of_mem_convert (by norm_num) d hd)

/-- Nothing else is read. -/
theorem isAlphanum_of_decode {text : String} {bytes : List UInt8} (h : decode text = some bytes)
    {c : Char} (hc : c ∈ text.toList) : c.isAlphanum := by
  obtain ⟨ds, hds, -⟩ := Option.map_eq_some_iff.mp h
  -- every character was read as a digit
  have hdigit : ∀ c ∈ text.toList, (ofChar c).isSome := by
    clear h hc
    generalize text.toList = cs at hds
    induction cs generalizing ds with
    | nil => exact fun _ hc => (List.not_mem_nil hc).elim
    | cons c' cs ih =>
      rw [List.mapM_cons] at hds
      obtain ⟨d, hd, hds⟩ := Option.bind_eq_some_iff.mp hds
      obtain ⟨ds', hds', -⟩ := Option.bind_eq_some_iff.mp hds
      exact List.forall_mem_cons.mpr ⟨by simp [hd], ih ds' hds'⟩
  have hmem : c ∈ alphabet := by
    have hfound := hdigit c hc
    rw [ofChar, List.findIdx?_isSome, List.any_eq_true] at hfound
    obtain ⟨c', hc', heq⟩ := hfound
    exact beq_iff_eq.mp heq ▸ hc'
  have halphabet : alphabet.all Char.isAlphanum = true := by decide
  exact List.all_eq_true.mp halphabet c hmem

end Base58Btc
