import AlmenaMediator.Didcomm.Crypto.Jwe

/-!
# The context of a derived key

`concat_kdf` hashes a shared secret together with the algorithm, the two parties and the content tag
(`crypto/jwe.rs`). All but the secret stand behind their length, so the hashed bytes can be taken
apart again:

- `be32_inj`: a length below 2³² is read back from its four bytes;
- `withLen_append_inj`: a field with its length in front ends where it ends, whatever follows it;
- `kdfInput_inj`: equal inputs were made from the same secret in the same context.
-/

namespace Didcomm

/-- A length takes four bytes. -/
@[simp] theorem length_be32 (n : ℕ) : (be32 n).length = 4 := rfl

/-- A length that fits is read back from its bytes. -/
theorem be32_inj {m n : ℕ} (hm : m < 2 ^ 32) (hn : n < 2 ^ 32) (h : be32 m = be32 n) : m = n := by
  have hbyte : ∀ {k l : ℕ}, UInt8.ofNat k = UInt8.ofNat l → k % 2 ^ 8 = l % 2 ^ 8 := by
    intro k l hkl
    simpa only [UInt8.toNat_ofNat'] using congrArg UInt8.toNat hkl
  simp only [be32, List.cons.injEq, and_true] at h
  obtain ⟨h₃, h₂, h₁, h₀⟩ := h
  -- the digits to base 256
  have hdigit₃ := hbyte h₃
  have hdigit₂ := hbyte h₂
  have hdigit₁ := hbyte h₁
  have hdigit₀ := hbyte h₀
  omega

/-- A field with its length in front ends where it ends, whatever follows it. -/
theorem withLen_append_inj {data data' rest rest' : Bytes} (hdata : data.length < 2 ^ 32)
    (hdata' : data'.length < 2 ^ 32) (h : withLen data ++ rest = withLen data' ++ rest') :
    data = data' ∧ rest = rest' := by
  rw [withLen, withLen, List.append_assoc, List.append_assoc] at h
  obtain ⟨hlen, htail⟩ := List.append_inj h (by rw [length_be32, length_be32])
  exact List.append_inj htail (be32_inj hdata hdata' hlen)

/-- The tag is the last field, or is not there. -/
theorem withLen_tag_inj {tag tag' : Option Bytes} (htag : ∀ t ∈ tag, t.length < 2 ^ 32)
    (htag' : ∀ t ∈ tag', t.length < 2 ^ 32)
    (h : (tag.map withLen).getD [] = (tag'.map withLen).getD []) : tag = tag' := by
  have hne : ∀ t : Bytes, withLen t ≠ [] := fun t => List.cons_ne_nil _ _
  match tag, tag' with
  | none, none => rfl
  | none, some t => exact absurd h.symm (hne t)
  | some t, none => exact absurd h (hne t)
  | some t, some t' =>
    have hsame : withLen t ++ [] = withLen t' ++ [] := by simpa using h
    obtain ⟨rfl, -⟩ := withLen_append_inj (htag t rfl) (htag' t' rfl) hsame
    rfl

/-- The names of the algorithms are of different lengths. -/
theorem KeyWrap.name_inj {alg alg' : KeyWrap}
    (h : utf8 alg.name = utf8 alg'.name) : alg = alg' := by
  have hlength := congrArg List.length h
  cases alg <;> cases alg' <;> first | rfl | exact absurd hlength (by decide)

/-- The name of a key wrap is short enough for a length of four bytes. -/
theorem KeyWrap.length_name_lt (alg : KeyWrap) : (utf8 alg.name).length < 2 ^ 32 := by
  cases alg <;> decide

/-- What is hashed determines its context: two inputs are equal only if they were made from the same
secret for the same algorithm, parties and tag. -/
theorem kdfInput_inj {z z' apu apu' apv apv' : Bytes} {alg alg' : KeyWrap} {tag tag' : Option Bytes}
    (hz : z.length = z'.length) (hapu : apu.length < 2 ^ 32) (hapu' : apu'.length < 2 ^ 32)
    (hapv : apv.length < 2 ^ 32) (hapv' : apv'.length < 2 ^ 32)
    (htag : ∀ t ∈ tag, t.length < 2 ^ 32) (htag' : ∀ t ∈ tag', t.length < 2 ^ 32) :
    kdfInput z alg apu apv tag = kdfInput z' alg' apu' apv' tag' ↔
      z = z' ∧ alg = alg' ∧ apu = apu' ∧ apv = apv' ∧ tag = tag' := by
  constructor
  · intro h
    simp only [kdfInput, List.append_assoc] at h
    -- the secret has no length in front, but both have the same
    have hsecret := List.append_cancel_left h
    obtain ⟨rfl, hfields⟩ := List.append_inj hsecret hz
    obtain ⟨hname, hparties⟩ := withLen_append_inj alg.length_name_lt alg'.length_name_lt hfields
    obtain ⟨rfl, hrecipients⟩ := withLen_append_inj hapu hapu' hparties
    obtain ⟨rfl, hinfo⟩ := withLen_append_inj hapv hapv' hrecipients
    have hlast := withLen_tag_inj htag htag' (List.append_cancel_left hinfo)
    exact ⟨rfl, KeyWrap.name_inj hname, rfl, rfl, hlast⟩
  · rintro ⟨rfl, rfl, rfl, rfl, rfl⟩
    rfl

/-- An anonymous key and an authenticated one of an empty tag. -/
theorem kdfInput_inj_untagged : kdfInput [1] .ecdhEsA256Kw [] [2] none ≠
    kdfInput [1] .ecdh1PuA256Kw [] [2] (some []) := by
  intro h
  have hcontext := (kdfInput_inj rfl (by decide) (by decide) (by decide) (by decide) (by simp)
    (by simp)).mp h
  exact absurd hcontext.2.1 (by decide)

end Didcomm
