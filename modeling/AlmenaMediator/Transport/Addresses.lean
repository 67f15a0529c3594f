import AlmenaMediator.Library.AddressBlock
import Mathlib.Tactic.Ring

/-!
# Public addresses

`is_public` of `transport.rs` and the DNS resolver that keeps public addresses only, with the
predicates of `std::net` they use. The blocks that are not globally routable unicast are `special4`
and `special6`; `is_public` misses some of them (`Missed`).
-/

namespace Transport

open AddressBlock

/-- `std::net::Ipv4Addr`, by its octets. -/
structure Ipv4Addr where
  a : UInt8
  b : UInt8
  c : UInt8
  d : UInt8
  deriving DecidableEq, Repr

/-- `std::net::Ipv6Addr`, by its segments. -/
structure Ipv6Addr where
  s0 : UInt16
  s1 : UInt16
  s2 : UInt16
  s3 : UInt16
  s4 : UInt16
  s5 : UInt16
  s6 : UInt16
  s7 : UInt16
  deriving DecidableEq, Repr

/-- `std::net::IpAddr`. -/
inductive IpAddr
  | v4 (ip : Ipv4Addr)
  | v6 (ip : Ipv6Addr)
  deriving DecidableEq, Repr

namespace Ipv4Addr

def isPrivate (ip : Ipv4Addr) : Bool :=
  ip.a == 10 || (ip.a == 172 && 16 ≤ ip.b && ip.b ≤ 31) || (ip.a == 192 && ip.b == 168)

def isLoopback (ip : Ipv4Addr) : Bool := ip.a == 127

def isLinkLocal (ip : Ipv4Addr) : Bool := ip.a == 169 && ip.b == 254

def isUnspecified (ip : Ipv4Addr) : Bool := ip == ⟨0, 0, 0, 0⟩

def isBroadcast (ip : Ipv4Addr) : Bool := ip == ⟨255, 255, 255, 255⟩

def isMulticast (ip : Ipv4Addr) : Bool := 224 ≤ ip.a && ip.a ≤ 239

def isDocumentation (ip : Ipv4Addr) : Bool :=
  (ip.a == 192 && ip.b == 0 && ip.c == 2) || (ip.a == 198 && ip.b == 51 && ip.c == 100) ||
    (ip.a == 203 && ip.b == 0 && ip.c == 113)

/-- The address as a number. -/
def toNat (ip : Ipv4Addr) : ℕ :=
  ip.a.toNat * 2 ^ 24 + ip.b.toNat * 2 ^ 16 + ip.c.toNat * 2 ^ 8 + ip.d.toNat

end Ipv4Addr

namespace Ipv6Addr

def isLoopback (ip : Ipv6Addr) : Bool := ip == ⟨0, 0, 0, 0, 0, 0, 0, 1⟩

def isUnspecified (ip : Ipv6Addr) : Bool := ip == ⟨0, 0, 0, 0, 0, 0, 0, 0⟩

def isMulticast (ip : Ipv6Addr) : Bool := ip.s0 &&& 0xff00 == 0xff00

/-- The IPv4 address in two segments. -/
def embedded (high low : UInt16) : Ipv4Addr where
  a := (high >>> 8).toUInt8
  b := high.toUInt8
  c := (low >>> 8).toUInt8
  d := low.toUInt8

/-- `to_ipv4_mapped`. -/
def toIpv4Mapped (ip : Ipv6Addr) : Option Ipv4Addr :=
  if ip.s0 = 0 ∧ ip.s1 = 0 ∧ ip.s2 = 0 ∧ ip.s3 = 0 ∧ ip.s4 = 0 ∧ ip.s5 = 0xffff then
    some (embedded ip.s6 ip.s7)
  else none

/-- The address as a number. -/
def toNat (ip : Ipv6Addr) : ℕ :=
  ip.s0.toNat * 2 ^ 112 + ip.s1.toNat * 2 ^ 96 + ip.s2.toNat * 2 ^ 80 + ip.s3.toNat * 2 ^ 64 +
    ip.s4.toNat * 2 ^ 48 + ip.s5.toNat * 2 ^ 32 + ip.s6.toNat * 2 ^ 16 + ip.s7.toNat

end Ipv6Addr

/-- Whether an IPv4 address is globally routable unicast, as `is_public` says. -/
def isPublic4 (v4 : Ipv4Addr) : Bool :=
  !(v4.isPrivate || v4.isLoopback || v4.isLinkLocal || v4.isUnspecified || v4.isBroadcast ||
    v4.isMulticast || v4.isDocumentation || v4.a == 0 ||
    (v4.a == 100 && (64 ≤ v4.b && v4.b < 128)) ||  -- carrier-grade NAT
    (v4.a == 198 && (18 ≤ v4.b && v4.b < 20)))  -- benchmarking

/-- `is_public`. -/
def isPublic : IpAddr → Bool
  | .v4 v4 => isPublic4 v4
  | .v6 v6 =>
    match v6.toIpv4Mapped with
    | some v4 => isPublic4 v4
    | none =>
      !(v6.isLoopback || v6.isUnspecified || v6.isMulticast ||
        v6.s0 &&& 0xfe00 == 0xfc00 ||  -- unique local
        v6.s0 &&& 0xffc0 == 0xfe80 ||  -- link local
        (v6.s0 == 0x2001 && v6.s1 == 0x0db8))  -- documentation

/-- `PublicOnlyResolver`: the public ones of the addresses DNS returned, unless there is none. -/
def publicOnly (addrs : List IpAddr) : Option (List IpAddr) :=
  let addrs := addrs.filter isPublic
  if addrs = [] then none else some addrs

/-! ## Addresses that are not globally routable unicast -/

/-- The IPv4 blocks that are not globally routable unicast. -/
def special4 : List (Ipv4Addr × ℕ) :=
  [(⟨0, 0, 0, 0⟩, 8), (⟨10, 0, 0, 0⟩, 8), (⟨100, 64, 0, 0⟩, 10), (⟨127, 0, 0, 0⟩, 8),
    (⟨169, 254, 0, 0⟩, 16), (⟨172, 16, 0, 0⟩, 12), (⟨192, 0, 0, 0⟩, 24), (⟨192, 0, 2, 0⟩, 24),
    (⟨192, 168, 0, 0⟩, 16), (⟨198, 18, 0, 0⟩, 15), (⟨198, 51, 100, 0⟩, 24), (⟨203, 0, 113, 0⟩, 24),
    (⟨224, 0, 0, 0⟩, 4), (⟨240, 0, 0, 0⟩, 4)]

/-- The IPv6 blocks that are not globally routable unicast: unspecified, loopback, multicast,
discard only, documentation, unique local, link local and site local. -/
def special6 : List (Ipv6Addr × ℕ) :=
  [(⟨0, 0, 0, 0, 0, 0, 0, 0⟩, 128), (⟨0, 0, 0, 0, 0, 0, 0, 1⟩, 128),
    (⟨0xff00, 0, 0, 0, 0, 0, 0, 0⟩, 8), (⟨0x100, 0, 0, 0, 0, 0, 0, 0⟩, 64),
    (⟨0x2001, 0xdb8, 0, 0, 0, 0, 0, 0⟩, 32), (⟨0xfc00, 0, 0, 0, 0, 0, 0, 0⟩, 7),
    (⟨0xfe80, 0, 0, 0, 0, 0, 0, 0⟩, 10), (⟨0xfec0, 0, 0, 0, 0, 0, 0, 0⟩, 10)]

/-- The IPv6 blocks whose last 32 bits are an IPv4 address: IPv4-mapped, IPv4-compatible and
NAT64. -/
def translated : List (Ipv6Addr × ℕ) :=
  [(⟨0, 0, 0, 0, 0, 0xffff, 0, 0⟩, 96), (⟨0, 0, 0, 0, 0, 0, 0, 0⟩, 96),
    (⟨0x64, 0xff9b, 0, 0, 0, 0, 0, 0⟩, 96)]

/-- The address is in a block of the list. -/
def Special4 (v4 : Ipv4Addr) : Prop :=
  ∃ block ∈ special4, InBlock 32 block.1.toNat block.2 v4.toNat

/-- The IPv4 address that an IPv6 address embeds: IPv4-mapped, IPv4-compatible, NAT64 or 6to4. -/
def Embeds (v6 : Ipv6Addr) (v4 : Ipv4Addr) : Prop :=
  (∃ block ∈ translated, InBlock 128 block.1.toNat block.2 v6.toNat) ∧
    v4.toNat = v6.toNat % 2 ^ 32 ∨
    InBlock 128 (Ipv6Addr.toNat ⟨0x2002, 0, 0, 0, 0, 0, 0, 0⟩) 16 v6.toNat ∧
      v4.toNat = v6.toNat / 2 ^ 80 % 2 ^ 32

/-- The address is not globally routable unicast. -/
def Special : IpAddr → Prop
  | .v4 v4 => Special4 v4
  | .v6 v6 => (∃ block ∈ special6, InBlock 128 block.1.toNat block.2 v6.toNat) ∨
      ∃ v4, Embeds v6 v4 ∧ Special4 v4

/-! ## What is missed -/

/-- The blocks of `special4` that `is_public` lets through. -/
def Missed4 (v4 : Ipv4Addr) : Prop :=
  InBlock 32 (Ipv4Addr.toNat ⟨192, 0, 0, 0⟩) 24 v4.toNat ∨
    InBlock 32 (Ipv4Addr.toNat ⟨240, 0, 0, 0⟩) 4 v4.toNat ∧ v4 ≠ ⟨255, 255, 255, 255⟩

section V4

variable (v4 : Ipv4Addr)

/-- The prefixes of an IPv4 address, read as a number, in terms of its four bytes. -/
theorem div4 : v4.toNat / 2 ^ 28 = v4.a.toNat / 16 ∧ v4.toNat / 2 ^ 24 = v4.a.toNat ∧
    v4.toNat / 2 ^ 22 = v4.a.toNat * 4 + v4.b.toNat / 64 ∧
    v4.toNat / 2 ^ 20 = v4.a.toNat * 16 + v4.b.toNat / 16 ∧
    v4.toNat / 2 ^ 17 = v4.a.toNat * 128 + v4.b.toNat / 2 ∧
    v4.toNat / 2 ^ 16 = v4.a.toNat * 256 + v4.b.toNat ∧
    v4.toNat / 2 ^ 8 = v4.a.toNat * 65536 + v4.b.toNat * 256 + v4.c.toNat := by
  have hb := v4.b.toNat_lt
  have hc := v4.c.toNat_lt
  have hd := v4.d.toNat_lt
  unfold Ipv4Addr.toNat
  refine ⟨?_, ?_, ?_, ?_, ?_, ?_, ?_⟩ <;> omega

/-- The blocks by octets. -/
theorem special4_iff : Special4 v4 ↔ v4.a.toNat = 0 ∨ v4.a.toNat = 10 ∨
    (v4.a.toNat = 100 ∧ 64 ≤ v4.b.toNat ∧ v4.b.toNat < 128) ∨ v4.a.toNat = 127 ∨
    (v4.a.toNat = 169 ∧ v4.b.toNat = 254) ∨ (v4.a.toNat = 172 ∧ 16 ≤ v4.b.toNat ∧ v4.b.toNat ≤ 31) ∨
    (v4.a.toNat = 192 ∧ v4.b.toNat = 0 ∧ v4.c.toNat = 0) ∨
    (v4.a.toNat = 192 ∧ v4.b.toNat = 0 ∧ v4.c.toNat = 2) ∨
    (v4.a.toNat = 192 ∧ v4.b.toNat = 168) ∨ (v4.a.toNat = 198 ∧ 18 ≤ v4.b.toNat ∧ v4.b.toNat < 20) ∨
    (v4.a.toNat = 198 ∧ v4.b.toNat = 51 ∧ v4.c.toNat = 100) ∨
    (v4.a.toNat = 203 ∧ v4.b.toNat = 0 ∧ v4.c.toNat = 113) ∨ (224 ≤ v4.a.toNat ∧ v4.a.toNat ≤ 239) ∨
    240 ≤ v4.a.toNat := by
  have ha := v4.a.toNat_lt
  obtain ⟨h28, h24, h22, h20, h17, h16, h8⟩ := div4 v4
  have hb := v4.b.toNat_lt
  have hc := v4.c.toNat_lt
  simp only [Special4, special4, List.mem_cons, List.not_mem_nil, or_false, exists_eq_or_imp,
    exists_eq_left, InBlock, Nat.reduceSub, h28, h24, h22, h20, h17, h16, h8]
  simp only [Ipv4Addr.toNat, UInt8.reduceToNat]
  refine or_congr ?_ (or_congr ?_ (or_congr ?_ (or_congr ?_ (or_congr ?_ (or_congr ?_ (or_congr ?_
    (or_congr ?_ (or_congr ?_ (or_congr ?_ (or_congr ?_ (or_congr ?_ (or_congr ?_ ?_)))))))))))) <;>
      omega

/-- The special IPv4 addresses that the check misses, byte by byte: 192.0.0.0/24, and 240.0.0.0/4 up
to the broadcast address. -/
theorem missed4_iff : Missed4 v4 ↔ (v4.a.toNat = 192 ∧ v4.b.toNat = 0 ∧ v4.c.toNat = 0) ∨
    (240 ≤ v4.a.toNat ∧
      ¬ (v4.a.toNat = 255 ∧ v4.b.toNat = 255 ∧ v4.c.toNat = 255 ∧ v4.d.toNat = 255)) := by
  obtain ⟨h28, -, -, -, -, -, h8⟩ := div4 v4
  have ha := v4.a.toNat_lt
  have hb := v4.b.toNat_lt
  have hc := v4.c.toNat_lt
  have hbroadcast : v4 = ⟨255, 255, 255, 255⟩ ↔ v4.a.toNat = 255 ∧ v4.b.toNat = 255 ∧
      v4.c.toNat = 255 ∧ v4.d.toNat = 255 := by
    cases v4
    simp only [Ipv4Addr.mk.injEq, ← UInt8.toNat_inj, UInt8.reduceToNat]
  simp only [Missed4, InBlock, Nat.reduceSub, h28, h8, ne_eq, hbroadcast]
  simp only [Ipv4Addr.toNat, UInt8.reduceToNat]
  omega

/-- `is_public` on IPv4 addresses. -/
theorem isPublic4_eq_false_iff : isPublic4 v4 = false ↔ Special4 v4 ∧ ¬ Missed4 v4 := by
  have ha := v4.a.toNat_lt
  rw [special4_iff, missed4_iff]
  simp only [isPublic4, Ipv4Addr.isPrivate, Ipv4Addr.isLoopback, Ipv4Addr.isLinkLocal,
    Ipv4Addr.isUnspecified, Ipv4Addr.isBroadcast, Ipv4Addr.isMulticast, Ipv4Addr.isDocumentation]
  cases v4
  simp only [Bool.not_eq_false', Bool.or_eq_true, Bool.and_eq_true, decide_eq_true_eq, beq_iff_eq,
    Ipv4Addr.mk.injEq, ← UInt8.toNat_inj, UInt8.le_iff_toNat_le, UInt8.lt_iff_toNat_lt,
    UInt8.reduceToNat] at ha ⊢
  constructor
  · intro h
    rcases h with
      (((((((((((h | h) | h) | h) | h) | h) | h) | h) | ((h | h) | h)) | h) | h) | h) <;>
    exact ⟨by simp [h], by omega⟩
  -- every listed block but two is tested, and of the last only broadcast is
  · rintro ⟨h, hmissed⟩
    rw [not_or] at hmissed
    rcases h with h | h | h | h | h | h | h | h | h | h | h | h | h | h
    case inr.inr.inr.inr.inr.inr.inl => exact absurd h hmissed.1
    case inr.inr.inr.inr.inr.inr.inr.inr.inr.inr.inr.inr.inr =>
      have hbroadcast := not_not.mp fun hnot => hmissed.2 ⟨h, hnot⟩
      simp [hbroadcast]
    all_goals simp [h]

end V4

/-- The addresses of special blocks that `is_public` lets through. -/
def Missed : IpAddr → Prop
  | .v4 v4 => Missed4 v4
  | .v6 v6 =>
    InBlock 128 (Ipv6Addr.toNat ⟨0x100, 0, 0, 0, 0, 0, 0, 0⟩) 64 v6.toNat ∨
    InBlock 128 (Ipv6Addr.toNat ⟨0xfec0, 0, 0, 0, 0, 0, 0, 0⟩) 10 v6.toNat ∨
    ∃ v4, Embeds v6 v4 ∧
      if InBlock 128 (Ipv6Addr.toNat ⟨0, 0, 0, 0, 0, 0xffff, 0, 0⟩) 96 v6.toNat then Missed4 v4
      else Special4 v4 ∧ v6 ≠ ⟨0, 0, 0, 0, 0, 0, 0, 0⟩ ∧ v6 ≠ ⟨0, 0, 0, 0, 0, 0, 0, 1⟩

section V6

variable (v6 : Ipv6Addr)

/-- The prefixes of an IPv6 address, read as a number, in terms of its eight segments. -/
theorem div6 : v6.toNat / 2 ^ 121 = v6.s0.toNat / 512 ∧ v6.toNat / 2 ^ 120 = v6.s0.toNat / 256 ∧
    v6.toNat / 2 ^ 118 = v6.s0.toNat / 64 ∧ v6.toNat / 2 ^ 112 = v6.s0.toNat ∧
    v6.toNat / 2 ^ 96 = v6.s0.toNat * 2 ^ 16 + v6.s1.toNat ∧
    v6.toNat / 2 ^ 80 = v6.s0.toNat * 2 ^ 32 + v6.s1.toNat * 2 ^ 16 + v6.s2.toNat ∧
    v6.toNat / 2 ^ 64 = v6.s0.toNat * 2 ^ 48 + v6.s1.toNat * 2 ^ 32 + v6.s2.toNat * 2 ^ 16 +
      v6.s3.toNat ∧
    v6.toNat / 2 ^ 32 = v6.s0.toNat * 2 ^ 80 + v6.s1.toNat * 2 ^ 64 + v6.s2.toNat * 2 ^ 48 +
      v6.s3.toNat * 2 ^ 32 + v6.s4.toNat * 2 ^ 16 + v6.s5.toNat ∧
    v6.toNat % 2 ^ 32 = v6.s6.toNat * 2 ^ 16 + v6.s7.toNat := by
  have h1 := v6.s1.toNat_lt
  have h2 := v6.s2.toNat_lt
  have h3 := v6.s3.toNat_lt
  have h4 := v6.s4.toNat_lt
  have h5 := v6.s5.toNat_lt
  have h6 := v6.s6.toNat_lt
  have h7 := v6.s7.toNat_lt
  unfold Ipv6Addr.toNat
  refine ⟨?_, ?_, ?_, ?_, ?_, ?_, ?_, ?_, ?_⟩ <;> omega

/-- A segment's mask picks out a block. -/
theorem segment_and_eq_iff {segment base : UInt16} {len : ℕ} (hlen : len ≤ 16)
    (hbase : 2 ^ (16 - len) ∣ base.toNat) {bits : UInt16} (hbits : bits.toNat = mask 16 len) :
    segment &&& bits = base ↔ segment.toNat / 2 ^ (16 - len) = base.toNat / 2 ^ (16 - len) := by
  rw [← UInt16.toNat_inj, UInt16.toNat_and, hbits]
  exact and_mask_eq_iff hlen segment.toNat_lt hbase

end V6

/-- The IPv4 address embedded in two segments is the number they make. -/
theorem toNat_embedded (high low : UInt16) :
    (Ipv6Addr.embedded high low).toNat = high.toNat * 2 ^ 16 + low.toNat := by
  have hh := high.toNat_lt
  have hl := low.toNat_lt
  simp only [Ipv6Addr.embedded, Ipv4Addr.toNat, UInt16.toNat_toUInt8, UInt16.toNat_shiftRight,
    UInt16.reduceToNat, Nat.reduceMod, Nat.shiftRight_eq_div_pow]
  omega

/-- An IPv4 address is determined by the number it stands for. -/
theorem Ipv4Addr.toNat_inj {ip ip' : Ipv4Addr} : ip.toNat = ip'.toNat ↔ ip = ip' := by
  refine ⟨fun h => ?_, fun h => h ▸ rfl⟩
  have hb := ip.b.toNat_lt
  have hc := ip.c.toNat_lt
  have hd := ip.d.toNat_lt
  have hb' := ip'.b.toNat_lt
  have hc' := ip'.c.toNat_lt
  have hd' := ip'.d.toNat_lt
  cases ip
  cases ip'
  simp only [Ipv4Addr.toNat, Ipv4Addr.mk.injEq, ← UInt8.toNat_inj] at *
  omega

section V6

variable (v6 : Ipv6Addr)

/-- The block of IPv4-mapped addresses, by segments. -/
def Mapped : Prop :=
  v6.s0 = 0 ∧ v6.s1 = 0 ∧ v6.s2 = 0 ∧ v6.s3 = 0 ∧ v6.s4 = 0 ∧ v6.s5 = 0xffff

/-- The block of the IPv4-mapped addresses has exactly those of its form. -/
theorem mapped_iff :
    InBlock 128 (Ipv6Addr.toNat ⟨0, 0, 0, 0, 0, 0xffff, 0, 0⟩) 96 v6.toNat ↔ Mapped v6 := by
  obtain ⟨-, -, -, -, -, -, -, h32, -⟩ := div6 v6
  have h1 := v6.s1.toNat_lt
  have h2 := v6.s2.toNat_lt
  have h3 := v6.s3.toNat_lt
  have h4 := v6.s4.toNat_lt
  have h5 := v6.s5.toNat_lt
  simp only [InBlock, Nat.reduceSub, h32, Mapped, ← UInt16.toNat_inj]
  simp only [Ipv6Addr.toNat, UInt16.reduceToNat]
  omega

/-- A mapped address is read as the IPv4 address in its last two segments. -/
theorem toIpv4Mapped_of_mapped (h : Mapped v6) :
    v6.toIpv4Mapped = some (Ipv6Addr.embedded v6.s6 v6.s7) := if_pos h

/-- No other address is read as a mapped one. -/
theorem toIpv4Mapped_of_not_mapped (h : ¬ Mapped v6) : v6.toIpv4Mapped = none := if_neg h

/-- The block of IPv4-compatible addresses, by segments. -/
def Compatible : Prop :=
  v6.s0 = 0 ∧ v6.s1 = 0 ∧ v6.s2 = 0 ∧ v6.s3 = 0 ∧ v6.s4 = 0 ∧ v6.s5 = 0

/-- The NAT64 block, by segments. -/
def Nat64 : Prop :=
  v6.s0 = 0x64 ∧ v6.s1 = 0xff9b ∧ v6.s2 = 0 ∧ v6.s3 = 0 ∧ v6.s4 = 0 ∧ v6.s5 = 0

/-- The blocks that carry IPv4 addresses are the mapped, the compatible and the NAT64 ones. -/
theorem translated_iff : (∃ block ∈ translated, InBlock 128 block.1.toNat block.2 v6.toNat) ↔
    Mapped v6 ∨ Compatible v6 ∨ Nat64 v6 := by
  obtain ⟨-, -, -, -, -, -, -, h32, -⟩ := div6 v6
  have h1 := v6.s1.toNat_lt
  have h2 := v6.s2.toNat_lt
  have h3 := v6.s3.toNat_lt
  have h4 := v6.s4.toNat_lt
  have h5 := v6.s5.toNat_lt
  simp only [translated, List.mem_cons, List.not_mem_nil, or_false, exists_eq_or_imp,
    exists_eq_left, mapped_iff]
  refine or_congr Iff.rfl (or_congr ?_ ?_)
  all_goals
    simp only [InBlock, Nat.reduceSub, h32, Compatible, Nat64, ← UInt16.toNat_inj]
    simp only [Ipv6Addr.toNat, UInt16.reduceToNat]
    omega

/-- The embedded addresses, by segments. -/
theorem embeds_iff (v4 : Ipv4Addr) : Embeds v6 v4 ↔
    (Mapped v6 ∨ Compatible v6 ∨ Nat64 v6) ∧ v4 = Ipv6Addr.embedded v6.s6 v6.s7 ∨
      v6.s0 = 0x2002 ∧ v4 = Ipv6Addr.embedded v6.s1 v6.s2 := by
  obtain ⟨-, -, -, h112, -, h80, -, -, hlow⟩ := div6 v6
  have h1 := v6.s1.toNat_lt
  have h2 := v6.s2.toNat_lt
  have hsix : (v6.s0.toNat * 2 ^ 32 + v6.s1.toNat * 2 ^ 16 + v6.s2.toNat) % 2 ^ 32 =
      v6.s1.toNat * 2 ^ 16 + v6.s2.toNat := by omega
  have hprefix : InBlock 128 (Ipv6Addr.toNat ⟨0x2002, 0, 0, 0, 0, 0, 0, 0⟩) 16 v6.toNat ↔
      v6.s0 = 0x2002 := by
    simp only [InBlock, Nat.reduceSub, h112, ← UInt16.toNat_inj]
    simp only [Ipv6Addr.toNat, UInt16.reduceToNat]
    omega
  unfold Embeds
  rw [translated_iff, hlow, h80, hsix, ← toNat_embedded, ← toNat_embedded, Ipv4Addr.toNat_inj,
    Ipv4Addr.toNat_inj, hprefix]

/-- The special IPv6 blocks, by segments. -/
theorem special6_iff : (∃ block ∈ special6, InBlock 128 block.1.toNat block.2 v6.toNat) ↔
    v6 = ⟨0, 0, 0, 0, 0, 0, 0, 0⟩ ∨ v6 = ⟨0, 0, 0, 0, 0, 0, 0, 1⟩ ∨ v6.s0.toNat / 256 = 0xff ∨
    (v6.s0 = 0x100 ∧ v6.s1 = 0 ∧ v6.s2 = 0 ∧ v6.s3 = 0) ∨ (v6.s0 = 0x2001 ∧ v6.s1 = 0xdb8) ∨
    v6.s0.toNat / 512 = 0x7e ∨ v6.s0.toNat / 64 = 0x3fa ∨ v6.s0.toNat / 64 = 0x3fb := by
  -- a prefix is read off the first segments it covers
  obtain ⟨h121, h120, h118, h112, h96, -, h64, -, -⟩ := div6 v6
  have h1 := v6.s1.toNat_lt
  have h2 := v6.s2.toNat_lt
  have h3 := v6.s3.toNat_lt
  have h4 := v6.s4.toNat_lt
  have h5 := v6.s5.toNat_lt
  have h6 := v6.s6.toNat_lt
  have h7 := v6.s7.toNat_lt
  simp only [special6, List.mem_cons, List.not_mem_nil, or_false, exists_eq_or_imp,
    exists_eq_left, InBlock, Nat.reduceSub, h121, h120, h118, h96, h64, ← UInt16.toNat_inj]
  refine or_congr ?_ (or_congr ?_ (or_congr ?_ (or_congr ?_ (or_congr ?_ (or_congr ?_
    (or_congr ?_ ?_))))))
  case refine_1 =>
    cases v6
    simp only [Ipv6Addr.toNat, Ipv6Addr.mk.injEq, UInt16.reduceToNat, ← UInt16.toNat_inj] at *
    omega
  case refine_2 =>
    cases v6
    simp only [Ipv6Addr.toNat, Ipv6Addr.mk.injEq, UInt16.reduceToNat, ← UInt16.toNat_inj] at *
    omega
  all_goals
    simp only [Ipv6Addr.toNat, UInt16.reduceToNat]
    omega

/-- The blocks that `is_public` lets through besides embedded addresses, by segments. -/
theorem missed6_iff : Missed (.v6 v6) ↔ (v6.s0 = 0x100 ∧ v6.s1 = 0 ∧ v6.s2 = 0 ∧ v6.s3 = 0) ∨
    v6.s0.toNat / 64 = 0x3fb ∨ ∃ v4, Embeds v6 v4 ∧ ((Mapped v6 ∧ Missed4 v4) ∨
      (¬ Mapped v6 ∧ Special4 v4 ∧ v6 ≠ ⟨0, 0, 0, 0, 0, 0, 0, 0⟩ ∧
        v6 ≠ ⟨0, 0, 0, 0, 0, 0, 0, 1⟩)) := by
  obtain ⟨-, -, h118, -, -, -, h64, -, -⟩ := div6 v6
  have h1 := v6.s1.toNat_lt
  have h2 := v6.s2.toNat_lt
  have h3 := v6.s3.toNat_lt
  unfold Missed
  refine or_congr ?_ (or_congr ?_ (exists_congr fun v4 => and_congr_right fun _ => ?_))
  case refine_1 =>
    simp only [InBlock, Nat.reduceSub, h64, ← UInt16.toNat_inj]
    simp only [Ipv6Addr.toNat, UInt16.reduceToNat]
    omega
  case refine_2 =>
    simp only [InBlock, Nat.reduceSub, h118]
    simp only [Ipv6Addr.toNat, UInt16.reduceToNat]
    omega
  -- the IPv4 address inside is judged by the same lists
  case refine_3 =>
    rw [← mapped_iff]
    split <;> simp only [*, true_and, not_true_eq_false, false_and, or_false,
      not_false_eq_true, false_or]

/-- `is_public` on IPv6 addresses that are not IPv4-mapped. -/
theorem isPublic_v6_eq_false_iff (h : ¬ Mapped v6) : isPublic (.v6 v6) = false ↔
    v6 = ⟨0, 0, 0, 0, 0, 0, 0, 0⟩ ∨ v6 = ⟨0, 0, 0, 0, 0, 0, 0, 1⟩ ∨ v6.s0.toNat / 256 = 0xff ∨
      (v6.s0 = 0x2001 ∧ v6.s1 = 0xdb8) ∨ v6.s0.toNat / 512 = 0x7e ∨ v6.s0.toNat / 64 = 0x3fa := by
  have hmulticast : v6.s0 &&& 0xff00 = 0xff00 ↔ v6.s0.toNat / 256 = 0xff :=
    segment_and_eq_iff (show 8 ≤ 16 by decide) (by decide) (by decide)
  have hlocal : v6.s0 &&& 0xfe00 = 0xfc00 ↔ v6.s0.toNat / 512 = 0x7e :=
    segment_and_eq_iff (show 7 ≤ 16 by decide) (by decide) (by decide)
  have hlink : v6.s0 &&& 0xffc0 = 0xfe80 ↔ v6.s0.toNat / 64 = 0x3fa :=
    segment_and_eq_iff (show 10 ≤ 16 by decide) (by decide) (by decide)
  simp only [isPublic, toIpv4Mapped_of_not_mapped v6 h, Ipv6Addr.isLoopback, Ipv6Addr.isUnspecified,
    Ipv6Addr.isMulticast, Bool.not_eq_false', Bool.or_eq_true, Bool.and_eq_true, beq_iff_eq,
    hmulticast, hlocal, hlink]
  tauto

/-- An address with an embedded one in a special block is special itself, or missed. -/
theorem special_v6_iff (h : ¬ Mapped v6) : Special (.v6 v6) ↔
    isPublic (.v6 v6) = false ∨ Missed (.v6 v6) := by
  rw [isPublic_v6_eq_false_iff v6 h, missed6_iff, Special, special6_iff]
  simp only [h, false_and, not_false_eq_true, true_and, false_or]
  by_cases hzero : v6 = ⟨0, 0, 0, 0, 0, 0, 0, 0⟩
  · simp [hzero]
  by_cases hone : v6 = ⟨0, 0, 0, 0, 0, 0, 0, 1⟩
  · simp [hone]
  simp only [hzero, hone, ne_eq, not_false_eq_true, and_true, false_or]
  tauto

/-- What `is_public` refuses is not missed: the first segments differ. -/
theorem not_missed_of_refused (hmapped : ¬ Mapped v6) (h : isPublic (.v6 v6) = false) :
    ¬ Missed (.v6 v6) := by
  rw [isPublic_v6_eq_false_iff v6 hmapped] at h
  rw [missed6_iff]
  rintro (hdiscard | hsite | ⟨v4, hembeds, ⟨h', -⟩ | ⟨-, -, hzero, hone⟩⟩)
  · rcases h with rfl | rfl | h | h | h | h <;> simp_all
  · rcases h with rfl | rfl | h | h | h | h
    case inr.inr.inr.inl => simp [h] at hsite
    all_goals first | omega | simp at hsite
  · exact hmapped h'
  -- an address that embeds another begins with one of three segments
  · have hfirst : v6.s0.toNat = 0 ∨ v6.s0.toNat = 0x64 ∨ v6.s0.toNat = 0x2002 := by
      rcases (embeds_iff v6 v4).mp hembeds with ⟨h' | h' | h', -⟩ | ⟨h', -⟩
      · exact absurd h' hmapped
      · simp [h'.1]
      · simp [h'.1]
      · simp [h']
    rcases h with h | h | h | h | h | h
    · exact hzero h
    · exact hone h
    · omega
    · simp [h.1] at hfirst
    all_goals omega

/-- An IPv4-mapped address stands for the IPv4 address it embeds, and for nothing else. -/
theorem mapped_special_iff (h : Mapped v6) :
    (Special (.v6 v6) ↔ Special4 (Ipv6Addr.embedded v6.s6 v6.s7)) ∧
      (Missed (.v6 v6) ↔ Missed4 (Ipv6Addr.embedded v6.s6 v6.s7)) := by
  obtain ⟨h0, -, -, -, -, h5⟩ := id h
  have hembeds (v4 : Ipv4Addr) : Embeds v6 v4 ↔ v4 = Ipv6Addr.embedded v6.s6 v6.s7 := by
    rw [embeds_iff]
    simp [h, h0]
  have hzero (low : UInt16) : v6 ≠ ⟨0, 0, 0, 0, 0, 0, 0, low⟩ := fun heq => by
    rw [heq] at h5
    exact absurd h5 (by decide : (0 : UInt16) ≠ 0xffff)
  constructor
  · rw [Special, special6_iff]
    simp [hembeds, hzero, h0]
  · rw [missed6_iff]
    simp [hembeds, h, h0]

end V6

/-- What is missed is special. -/
theorem Missed.special {ip : IpAddr} (h : Missed ip) : Special ip := by
  cases ip with
  | v4 v4 =>
    refine (special4_iff v4).mpr ?_
    rcases (missed4_iff v4).mp h with h | h <;> simp [h]
  | v6 v6 =>
    by_cases hmapped : Mapped v6
    · obtain ⟨hspecial, hmissed⟩ := mapped_special_iff v6 hmapped
      refine hspecial.mpr ((special4_iff _).mpr ?_)
      rcases (missed4_iff _).mp (hmissed.mp h) with h | h <;> simp [h]
    · exact (special_v6_iff v6 hmapped).mpr (.inr h)

/-- The addresses `is_public` refuses are the special ones it does not miss. -/
theorem isPublic_eq_false_iff (ip : IpAddr) : isPublic ip = false ↔ Special ip ∧ ¬ Missed ip := by
  cases ip with
  | v4 v4 => exact isPublic4_eq_false_iff v4
  | v6 v6 =>
    by_cases hmapped : Mapped v6
    · rw [(mapped_special_iff v6 hmapped).1, (mapped_special_iff v6 hmapped).2,
        ← isPublic4_eq_false_iff, isPublic, toIpv4Mapped_of_mapped v6 hmapped]
    · rw [special_v6_iff v6 hmapped]
      refine ⟨fun h => ⟨.inl h, fun hmissed => ?_⟩, fun ⟨h, hmissed⟩ => h.resolve_right hmissed⟩
      exact not_missed_of_refused v6 hmapped h hmissed

/-- `is_public` is false for a special address exactly when the address is not in one of the blocks
it misses, and the resolver yields no special address exactly when DNS returned none of those. -/
theorem special_refused_iff_not_missed (ip : IpAddr) (addrs : List IpAddr) :
    ((Special ip → isPublic ip = false) ↔ ¬ Missed ip) ∧
      ((∀ ips, publicOnly addrs = some ips → ∀ ip ∈ ips, ¬ Special ip) ↔
        ∀ ip ∈ addrs, ¬ Missed ip) := by
  have hrefused (ip : IpAddr) : (Special ip → isPublic ip = false) ↔ ¬ Missed ip := by
    rw [isPublic_eq_false_iff]
    exact ⟨fun h hmissed => (h hmissed.special).2 hmissed, fun h hspecial => ⟨hspecial, h⟩⟩
  refine ⟨hrefused ip, fun h ip hip hmissed => ?_, fun h ips hips ip hip hspecial => ?_⟩
  · -- a missed address is kept, so the resolver yields it
    have hpublic : isPublic ip = true := by
      rw [← Bool.not_eq_false, isPublic_eq_false_iff]
      exact fun hrefuse => hrefuse.2 hmissed
    have hkept : ip ∈ addrs.filter isPublic := List.mem_filter.mpr ⟨hip, hpublic⟩
    exact h _ (if_neg (List.ne_nil_of_mem hkept)) ip hkept hmissed.special
  · have hkept : ip ∈ addrs.filter isPublic := by
      dsimp only [publicOnly] at hips
      split at hips
      · nomatch hips
      · exact Option.some.inj hips ▸ hip
    obtain ⟨haddrs, hpublic⟩ := List.mem_filter.mp hkept
    rw [(hrefused ip).mpr (h ip haddrs) hspecial] at hpublic
    exact Bool.false_ne_true hpublic

/-- A reserved IPv4 address and the NAT64 address of 127.0.0.1 pass. -/
theorem special_passes : (¬ ∀ ip, Special ip → isPublic ip = false) ∧
    ¬ ∀ addrs ips, publicOnly addrs = some ips → ∀ ip ∈ ips, ¬ Special ip := by
  have hreserved : Special (.v4 ⟨240, 0, 0, 1⟩) := (special4_iff _).mpr (by decide)
  have hloopback : Special (.v6 ⟨0x64, 0xff9b, 0, 0, 0, 0, 0x7f00, 1⟩) :=
    .inr ⟨⟨127, 0, 0, 1⟩, (embeds_iff _ _).mpr
      (.inl ⟨.inr (.inr ⟨rfl, rfl, rfl, rfl, rfl, rfl⟩), rfl⟩), (special4_iff _).mpr (by decide)⟩
  refine ⟨fun h => ?_, fun h => ?_⟩
  · exact absurd (h _ hreserved) (by decide)
  · exact h [.v4 ⟨10, 0, 0, 1⟩, .v6 ⟨0x64, 0xff9b, 0, 0, 0, 0, 0x7f00, 1⟩]
      _ rfl _ (by decide) hloopback

end Transport
