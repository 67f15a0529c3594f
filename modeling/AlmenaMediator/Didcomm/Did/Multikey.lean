import AlmenaMediator.Didcomm.Crypto.Keys
import AlmenaMediator.Library.Base58Btc
import Mathlib.Data.Nat.Bitwise
import Mathlib.Tactic.Ring

/-!
# Multikeys

`did/multikey.rs`: a public key as `z`, base58btc and the multicodec of its curve. Base58 itself
(the `bs58` crate) is a parameter. The varint reader is on numbers, where no bit can be lost;
`decodeVarintWordFrom` is the same loop on machine words.

## Main results

* `decodeVarintWordFrom_eq`: on machine words no shift is out of range and no group is lost;
* `varint_multikey`: varints and keys are read back.
-/

namespace Didcomm

/-- The `bs58` crate. -/
structure Base58 where
  encode : Bytes → String
  decode : String → Option Bytes

/-- Decoding undoes encoding, and the alphabet has only letters and digits. -/
structure Base58.Lawful (base58 : Base58) : Prop where
  decode_encode : ∀ bytes, base58.decode (base58.encode bytes) = some bytes
  alphabet : ∀ bytes, ∀ c ∈ (base58.encode bytes).toList, c.isAlphanum

/-- Base58btc as the crate has it. -/
def bs58 : Base58 := ⟨Base58Btc.encode, Base58Btc.decode⟩

/-- A base58 that is lawful and decodes nothing but letters and digits, as the crate refuses every
character outside its alphabet. -/
class Base58.Strict (base58 : Base58) : Prop extends base58.Lawful where
  decode_alphabet : ∀ {text bytes}, base58.decode text = some bytes →
    ∀ c ∈ text.toList, c.isAlphanum

instance bs58_strict : bs58.Strict where
  decode_encode := Base58Btc.decode_encode
  alphabet _ _ := Base58Btc.isAlphanum_of_mem_encode
  decode_alphabet h _ := Base58Btc.isAlphanum_of_decode h

/-- The base 58 of Bitcoin is lawful, for it is strict. -/
theorem bs58_lawful : bs58.Lawful := bs58_strict.toLawful

/-- `str::strip_prefix`. -/
def stripPrefix (text start : String) : Option String :=
  if startsWith text start then
    some (String.ofList (text.toList.drop start.toList.length))
  else none

/-- Stripping a beginning from a text that was put behind it gives the text. -/
theorem stripPrefix_append (start text : String) :
    stripPrefix (start ++ text) start = some text := by
  simp [stripPrefix, startsWith]

/-- What is left of a text that begins so. -/
theorem stripPrefix_eq_some {start text rest : String} :
    stripPrefix text start = some rest ↔ text = start ++ rest := by
  refine ⟨fun h => ?_, fun h => h ▸ stripPrefix_append start rest⟩
  unfold stripPrefix at h
  split_ifs at h with hstart
  obtain ⟨tail, htail⟩ := List.isPrefixOf_iff_prefix.mp hstart
  obtain rfl := Option.some_inj.mp h
  rw [← String.toList_inj]
  simp [← htail]

namespace Multikey

variable (prim : Primitives) (base58 : Base58)

/-- Multicodec code for each curve's public key. -/
def codec : Curve → ℕ
  | .ed25519 => 0xed
  | .x25519 => 0xec
  | .p256 => 0x1200
  | .p384 => 0x1201
  | .p521 => 0x1202
  | .secp256k1 => 0xe7

def curve : ℕ → Result Curve
  | 0xed => .ok .ed25519
  | 0xec => .ok .x25519
  | 0x1200 => .ok .p256
  | 0x1201 => .ok .p384
  | 0x1202 => .ok .p521
  | 0xe7 => .ok .secp256k1
  | other => .error (.unsupported ("multicodec 0x" ++ String.ofList (Nat.toDigits 16 other)))

/-- The seven low bits of each group, lowest first; every byte but the last has its high bit set. -/
def encodeVarint (value : ℕ) : Bytes :=
  if value / 2 ^ 7 = 0 then [UInt8.ofNat (value % 2 ^ 7)]
  else UInt8.ofNat (value % 2 ^ 7 + 2 ^ 7) :: encodeVarint (value / 2 ^ 7)
termination_by value
decreasing_by omega

/-- Reads a varint from its byte `i` on, of nine at most. -/
def decodeVarintFrom (i value : ℕ) : Bytes → Result (ℕ × Bytes)
  | [] => .error (.malformed "multicodec varint")
  | byte :: rest =>
    if 9 ≤ i then .error (.malformed "multicodec varint")
    else
      -- the groups do not overlap, so `|=` adds
      let value := value + byte.toNat % 2 ^ 7 * 2 ^ (7 * i)
      if byte.toNat < 2 ^ 7 then .ok (value, rest) else decodeVarintFrom (i + 1) value rest

def decodeVarint (bytes : Bytes) : Result (ℕ × Bytes) := decodeVarintFrom 0 0 bytes

/-- Decodes a multibase base58btc (`z…`) string. -/
def decodeBase58btc (text : String) : Result Bytes := do
  let body ← okOr (.unsupported "multibase other than base58btc") (stripPrefix text "z")
  okOr (.malformed "base58btc") (base58.decode body)

def encodeBase58btc (bytes : Bytes) : String := "z" ++ base58.encode bytes

/-- Encodes a public key as a Multikey string (EC points compressed). -/
def encode (key : PublicKey) : String :=
  encodeBase58btc base58 (encodeVarint (codec key.curve) ++ key.bytes)

/-- Decodes a Multikey string. -/
def decode (text : String) : Result PublicKey := do
  let bytes ← decodeBase58btc base58 text
  let (codec, key) ← decodeVarint bytes
  let curve ← curve codec
  PublicKey.fromBytes prim curve key

variable {prim base58}

/-- The codec of a curve is read back as the curve. -/
theorem curve_codec (c : Curve) : curve (codec c) = .ok c := by
  cases c <;> rfl

/-- A varint is read back, as long as there are groups left for it. -/
theorem decodeVarintFrom_encodeVarint {i n value : ℕ} (rest : Bytes) (hi : i < 9)
    (hroom : n < 2 ^ (7 * (9 - i))) :
    decodeVarintFrom i value (encodeVarint n ++ rest) = .ok (value + n * 2 ^ (7 * i), rest) := by
  induction n using Nat.strongRecOn generalizing i value with
  | ind n ih =>
    have hlow : n % 2 ^ 7 < 2 ^ 7 := Nat.mod_lt _ (by norm_num)
    rw [encodeVarint]
    split_ifs with hlast
    · have hn : n % 2 ^ 7 = n := by omega
      have hbyte : (UInt8.ofNat (n % 2 ^ 7)).toNat = n := by
        rw [UInt8.toNat_ofNat', hn]
        omega
      simp only [List.cons_append, List.nil_append, decodeVarintFrom, hbyte]
      rw [if_neg (by omega), if_pos (by omega), hn]
    · have hbyte : (UInt8.ofNat (n % 2 ^ 7 + 2 ^ 7)).toNat = n % 2 ^ 7 + 2 ^ 7 := by
        rw [UInt8.toNat_ofNat']
        omega
      -- a number of more than seven bits leaves room for another group
      have hnext : i + 1 < 9 := by
        by_contra h
        have hone : 7 * (9 - i) = 7 := by omega
        rw [hone] at hroom
        omega
      have hsplit : 7 * (9 - i) = 7 * (9 - (i + 1)) + 7 := by omega
      have hrest : n / 2 ^ 7 < 2 ^ (7 * (9 - (i + 1))) := by
        rw [hsplit, pow_add] at hroom
        exact Nat.div_lt_of_lt_mul (by rwa [mul_comm])
      simp only [List.cons_append, decodeVarintFrom, hbyte]
      rw [if_neg (by omega), if_neg (by omega), ih (n / 2 ^ 7) (by omega) hnext hrest]
      have hpow : 2 ^ (7 * (i + 1)) = 2 ^ 7 * 2 ^ (7 * i) := by rw [← pow_add]; congr 1; omega
      have hgroup : (n % 2 ^ 7 + 2 ^ 7) % 2 ^ 7 = n % 2 ^ 7 := by omega
      have hvalue : n % 2 ^ 7 * 2 ^ (7 * i) + n / 2 ^ 7 *
        (2 ^ 7 * 2 ^ (7 * i)) = n * 2 ^ (7 * i) := by
        rw [← mul_assoc, ← add_mul, Nat.mod_add_div']
      rw [hgroup, hpow, add_assoc, hvalue]

/-- A number below 2^63 is read back from its varint, and what follows is left. -/
theorem decodeVarint_encodeVarint {n : ℕ} (rest : Bytes) (hn : n < 2 ^ 63) :
    decodeVarint (encodeVarint n ++ rest) = .ok (n, rest) := by
  have h : decodeVarintFrom 0 0 (encodeVarint n ++ rest) = .ok (0 + n * 2 ^ (7 * 0), rest) :=
    decodeVarintFrom_encodeVarint rest (by omega) hn
  simpa [decodeVarint] using h

/-- Bytes are read back from their base58btc text. -/
theorem decodeBase58btc_encodeBase58btc (hbase58 : ∀ bytes,
    base58.decode (base58.encode bytes) = some bytes)
    (bytes : Bytes) : decodeBase58btc base58 (encodeBase58btc base58 bytes) = .ok bytes := by
  rw [decodeBase58btc, encodeBase58btc, stripPrefix_append, okOr_some_bind, hbase58]
  rfl

/-- A public key is read back from its multikey. -/
theorem decode_encode (hbase58 : ∀ bytes, base58.decode (base58.encode bytes) = some bytes)
    {key : PublicKey} (hkey : prim.decodePoint key.curve key.bytes = some key.bytes) :
    decode prim base58 (encode base58 key) = .ok key := by
  have hbytes : decodeBase58btc base58 (encode base58 key) =
      .ok (encodeVarint (codec key.curve) ++ key.bytes) :=
    decodeBase58btc_encodeBase58btc hbase58 _
  have hcodec : codec key.curve < 2 ^ 63 := by cases key.curve <;> decide
  refine bind_eq_ok.mpr ⟨_, hbytes, bind_eq_ok.mpr ⟨_, decodeVarint_encodeVarint _ hcodec, ?_⟩⟩
  refine bind_eq_ok.mpr ⟨_, curve_codec _, ?_⟩
  rw [PublicKey.fromBytes, hkey]

/-- A multikey is letters and digits. -/
theorem isAlphanum_encode (hbase58 : base58.Lawful) (key : PublicKey) :
    ∀ c ∈ (encode base58 key).toList, c.isAlphanum := by
  intro c hc
  rw [encode, encodeBase58btc, String.toList_append, List.mem_append] at hc
  rcases hc with hc | hc
  · obtain rfl : c = 'z' := by simpa using hc
    decide
  · exact hbase58.alphabet _ c hc

/-- Only letters and digits are base58btc. -/
theorem isAlphanum_of_decodeBase58btc [base58.Strict] {text : String} {bytes : Bytes}
    (h : decodeBase58btc base58 text = .ok bytes) : ∀ c ∈ text.toList, c.isAlphanum := by
  obtain ⟨body, hbody, hbytes⟩ := bind_eq_ok.mp h
  obtain rfl := stripPrefix_eq_some.mp (okOr_eq_ok.mp hbody)
  intro c hc
  rw [String.toList_append, List.mem_append] at hc
  rcases hc with hc | hc
  · obtain rfl : c = 'z' := by simpa using hc
    decide
  · exact Base58.Strict.decode_alphabet (okOr_eq_ok.mp hbytes) c hc

/-- So is a multikey that is read. -/
theorem isAlphanum_of_decode [base58.Strict] {text : String} {key : PublicKey}
    (h : decode prim base58 text = .ok key) : ∀ c ∈ text.toList, c.isAlphanum := by
  obtain ⟨bytes, hbytes, -⟩ := bind_eq_ok.mp h
  exact isAlphanum_of_decodeBase58btc hbytes

/-- What a multikey is read as is on the curve it was written for. -/
theorem curve_of_decode_encode (hbase58 : ∀ bytes, base58.decode (base58.encode bytes) = some bytes)
    {key key' : PublicKey} (h : decode prim base58 (encode base58 key) = .ok key') :
    key'.curve = key.curve := by
  have hcodec : codec key.curve < 2 ^ 63 := by cases key.curve <;> decide
  simp only [decode, encode, decodeBase58btc, encodeBase58btc,
    stripPrefix_append, okOr, hbase58, bind, Except.bind, decodeVarint_encodeVarint _ hcodec,
      curve_codec, PublicKey.fromBytes] at h
  split at h
  · exact (congrArg PublicKey.curve (Except.ok.inj h)).symm
  · cases h

/-! ## On machine words -/

/-- `value << n` of a `u64`. A shift by all its bits or more is out of range. -/
def shl (value : UInt64) (n : ℕ) : Option UInt64 :=
  if n < 64 then some (value <<< UInt64.ofNat n) else none

/-- The loop of `decode_varint` on machine words; `none` is a shift that is out of range. -/
def decodeVarintWordFrom (i : ℕ) (value : UInt64) : Bytes → Option (Result (UInt64 × Bytes))
  | [] => some (.error (.malformed "multicodec varint"))
  | byte :: rest =>
    if 9 ≤ i then some (.error (.malformed "multicodec varint"))
    else
      match shl (byte &&& 0x7f).toUInt64 (7 * i) with
      | none => none
      | some group =>
        let value := value ||| group
        if byte &&& 0x80 = 0 then some (.ok (value, rest))
        else decodeVarintWordFrom (i + 1) value rest

def decodeVarintWord (bytes : Bytes) : Option (Result (UInt64 × Bytes)) :=
  decodeVarintWordFrom 0 0 bytes

/-- Each group makes room for the next. -/
theorem add_group_lt {i value : ℕ} (hvalue : value < 2 ^ (7 * i)) (byte : UInt8) :
    value + byte.toNat % 2 ^ 7 * 2 ^ (7 * i) < 2 ^ (7 * (i + 1)) := by
  have hstep : 2 ^ (7 * (i + 1)) = 2 ^ 7 * 2 ^ (7 * i) := by rw [← pow_add]; congr 1; omega
  have hgroup : byte.toNat % 2 ^ 7 < 2 ^ 7 := Nat.mod_lt _ (by norm_num)
  calc value + byte.toNat % 2 ^ 7 * 2 ^ (7 * i)
      < 2 ^ (7 * i) + byte.toNat % 2 ^ 7 * 2 ^ (7 * i) := Nat.add_lt_add_right hvalue _
    _ = (byte.toNat % 2 ^ 7 + 1) * 2 ^ (7 * i) := by ring
    _ ≤ 2 ^ 7 * 2 ^ (7 * i) := Nat.mul_le_mul_right _ hgroup
    _ = 2 ^ (7 * (i + 1)) := hstep.symm

/-- A group of seven bits stays in range and takes the place above the groups before it. -/
theorem shl_group {i value : ℕ} (hi : i < 9) (hvalue : value < 2 ^ (7 * i)) (byte : UInt8) :
    ∃ group, shl (byte &&& 0x7f).toUInt64 (7 * i) = some group ∧
      UInt64.ofNat value ||| group = UInt64.ofNat (value + byte.toNat % 2 ^ 7 * 2 ^ (7 * i)) := by
  have hlow : (byte &&& 0x7f).toUInt64.toNat = byte.toNat % 2 ^ 7 := by
    rw [UInt8.toNat_toUInt64, UInt8.toNat_and]
    exact Nat.and_two_pow_sub_one_eq_mod _ 7
  have hshift : (UInt64.ofNat (7 * i)).toNat % 64 = 7 * i := by
    rw [UInt64.toNat_ofNat']
    omega
  have hfits : value + byte.toNat % 2 ^ 7 * 2 ^ (7 * i) < 2 ^ 63 :=
    (add_group_lt hvalue byte).trans_le (Nat.pow_le_pow_right (by norm_num) (by omega))
  have hplaced : ((byte &&& 0x7f).toUInt64 <<< UInt64.ofNat (7 * i)).toNat =
      byte.toNat % 2 ^ 7 * 2 ^ (7 * i) := by
    rw [UInt64.toNat_shiftLeft, hshift, hlow, Nat.shiftLeft_eq]
    exact Nat.mod_eq_of_lt (by omega)
  have hbefore : (UInt64.ofNat value).toNat = value := by
    rw [UInt64.toNat_ofNat']
    exact Nat.mod_eq_of_lt (by omega)
  refine ⟨_, if_pos (by omega), UInt64.toNat_inj.mp ?_⟩
  have hafter : (UInt64.ofNat (value + byte.toNat % 2 ^ 7 * 2 ^ (7 * i))).toNat =
      value + byte.toNat % 2 ^ 7 * 2 ^ (7 * i) := by
    rw [UInt64.toNat_ofNat']
    exact Nat.mod_eq_of_lt (by omega)
  -- the bits of the group are all above those of `value`
  rw [UInt64.toNat_or, hplaced, hbefore, hafter, Nat.or_comm, Nat.mul_comm,
    ← Nat.two_pow_add_eq_or_of_lt hvalue, Nat.add_comm]

/-- A byte without the high bit. -/
theorem lt_two_pow_iff (byte : UInt8) : byte.toNat < 2 ^ 7 ↔ byte &&& 0x80 = 0 := by
  have hbyte := byte.toNat_lt
  have hhigh : (byte &&& 0x80).toNat = byte.toNat / 2 ^ 7 % 2 * 2 ^ 7 := by
    rw [UInt8.toNat_and]
    exact (Nat.and_two_pow byte.toNat 7).trans (by rw [Nat.toNat_testBit])
  rw [← UInt8.toNat_inj, hhigh, UInt8.toNat_zero]
  omega

/-- The loop on machine words is the loop on numbers: no group is lost and no shift is out of
range. -/
theorem decodeVarintWordFrom_eq {i value : ℕ} (bytes : Bytes) (hvalue : value < 2 ^ (7 * i)) :
    decodeVarintWordFrom i (UInt64.ofNat value) bytes =
      some ((decodeVarintFrom i value bytes).map fun r => (UInt64.ofNat r.1, r.2)) := by
  induction bytes generalizing i value with
  | nil => rfl
  | cons byte rest ih =>
    rw [decodeVarintWordFrom, decodeVarintFrom]
    by_cases hlimit : 9 ≤ i
    · rw [if_pos hlimit, if_pos hlimit]
      rfl
    -- below nine bytes no bit is shifted out, and the groups do not overlap
    · obtain ⟨group, hgroup, hor⟩ := shl_group (by omega) hvalue byte
      simp only [if_neg hlimit, hgroup, hor, ← lt_two_pow_iff]
      by_cases hlast : byte.toNat < 2 ^ 7
      · rw [if_pos hlast, if_pos hlast]
        rfl
      rw [if_neg hlast, if_neg hlast]
      exact ih (add_group_lt hvalue byte)

/-- The loop over machine words reads what the loop over numbers reads. -/
theorem decodeVarintWord_eq (bytes : Bytes) :
    decodeVarintWord bytes = some ((decodeVarint bytes).map fun r => (UInt64.ofNat r.1, r.2)) :=
  decodeVarintWordFrom_eq bytes (by norm_num)

/-- What is read is a prefix of what is left of nine bytes, and fits what those bytes have room
for. -/
theorem decodeVarintFrom_eq_ok {i value n : ℕ} {bytes rest : Bytes} (hvalue : value < 2 ^ (7 * i))
    (h : decodeVarintFrom i value bytes = .ok (n, rest)) :
    ∃ used, bytes = used ++ rest ∧ i + used.length ≤ 9 ∧ n < 2 ^ (7 * (i + used.length)) := by
  induction bytes generalizing i value with
  | nil => nomatch h
  | cons byte bytes ih =>
    rw [decodeVarintFrom] at h
    obtain ⟨hlimit, h⟩ := guard_eq_ok.mp h
    have hnext := add_group_lt hvalue byte
    split_ifs at h
    · obtain ⟨rfl, rfl⟩ := Prod.mk.inj (Except.ok.inj h)
      exact ⟨[byte], rfl, by simp; omega, hnext⟩
    -- the group is not the last one
    · obtain ⟨used, rfl, hlength, hn⟩ := ih hnext h
      have hsum : i + (byte :: used).length = i + 1 + used.length := by
        rw [List.length_cons]
        omega
      exact ⟨byte :: used, rfl, hsum ▸ hlength, hsum ▸ hn⟩

/-- A varint of less than nine groups is read back, whatever follows it; reading shifts by less than
64 bits and takes nine bytes at most; and a key is read back from its multikey. -/
theorem varint_multikey (hbase58 : ∀ bytes, base58.decode (base58.encode bytes) = some bytes) :
    (∀ (v : UInt64) (rest : Bytes), v.toNat < 2 ^ 63 →
      decodeVarintWord (encodeVarint v.toNat ++ rest) = some (.ok (v, rest))) ∧
    (∀ bytes : Bytes, (∃ e, decodeVarintWord bytes = some (.error e)) ∨
      ∃ v used rest, bytes = used ++ rest ∧ used.length ≤ 9 ∧
        decodeVarintWord bytes = some (.ok (v, rest))) ∧
    ∀ key : PublicKey, PublicKey.fromBytes prim key.curve key.bytes = .ok key →
      decode prim base58 (encode base58 key) = .ok key := by
  refine ⟨fun v rest hv => ?_, fun bytes => ?_, fun key hkey => ?_⟩
  · rw [decodeVarintWord_eq, decodeVarint_encodeVarint rest hv]
    simp [Except.map]
  -- the loop on machine words reads what the one on numbers reads
  · rw [decodeVarintWord_eq]
    match hread : decodeVarint bytes with
    | .error e => exact .inl ⟨e, rfl⟩
    | .ok (n, rest) =>
      obtain ⟨used, hused, hlength, -⟩ := decodeVarintFrom_eq_ok (by norm_num) hread
      exact .inr ⟨UInt64.ofNat n, used, rest, hused, by omega, rfl⟩
  · have hpoint : prim.decodePoint key.curve key.bytes = some key.bytes := by
      rw [PublicKey.fromBytes] at hkey
      split at hkey
      · next canonical hcanonical =>
        rw [hcanonical, ← Except.ok.inj hkey]
      · nomatch hkey
    exact decode_encode hbase58 hpoint

/-- The codec of an Ed25519 key and the key itself are read back from their encodings. -/
theorem varint_multikey_ed25519 :
    let prim := { Primitives.refusing with
      decodePoint := fun _ bytes => if bytes.length = 32 then some bytes else none }
    let key : PublicKey := ⟨.ed25519, List.replicate 32 7⟩
    decodeVarintWord (encodeVarint 0x1200 ++ [1]) = some (.ok (0x1200, [1])) ∧
      decode prim bs58 (encode bs58 key) = .ok key := by
  intro prim key
  obtain ⟨hvarint, -, hkeys⟩ := @varint_multikey prim bs58 bs58_lawful.decode_encode
  exact ⟨hvarint 0x1200 [1] (by decide), hkeys key rfl⟩

end Multikey

end Didcomm
