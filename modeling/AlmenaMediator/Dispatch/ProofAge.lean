import AlmenaMediator.Dispatch.Loopback
import AlmenaMediator.Dispatch.Mediation

/-!
# How recent a possession proof is

`check_proof` adds five minutes to a time that the signer of the proof chose and one to its own
clock, as `u64`s. In a build with debug assertions an addition that overflows panics, in a release
build it wraps (`Build`). The clock's sum always fits. The signer's does not from `2 ^ 64 - 300` on;
what wraps there is still refused, since such a time is also too far ahead.

## Main results

* `checkProofIn_wrapping`: in a release build this is `checkProof`;
* `checkClaimsIn_eq_ok_iff`: both builds accept the same times, those of the window;
* `proof_age_exact_iff`: the check is exact without an overflow exactly for the times whose sum
  fits.
-/

namespace Dispatch

open Didcomm

/-- What an overflow does. -/
inductive Build
  /-- It panics (debug assertions). -/
  | checked
  /-- It wraps (release). -/
  | wrapping
  deriving DecidableEq, Repr

/-- Addition of `u64`s; `none` is a panic. -/
def Build.add (build : Build) (a b : ℕ) : Option ℕ :=
  if a + b < 2 ^ 64 then some (a + b)
  else match build with
    | checked => none
    | wrapping => some (addU64 a b)

section Checks

variable (build : Build) (prim : Primitives) (mediator : Mediator) (resolver : Resolver)

/-- `checkClaims` as a build runs it. The second sum is only computed when the first one is not too
small. -/
def checkClaimsIn (requester did : String) (proof : PossessionProof) (now : ℕ) :
    Option (Except String Unit) :=
  if proof.iss ≠ did then some (.error "proof is for another DID")
  else if proof.aud ≠ mediator.identity.did then some (.error "proof is for another mediator")
  else if proof.sub ≠ requester then some (.error "proof is for another mediation")
  else
    (build.add proof.iat proofMaxAgeSecs).bind fun expiry =>
      if expiry < now then some (.error "proof is not recent")
      else
        (build.add now proofMaxSkewSecs).bind fun latest =>
          if latest < proof.iat then some (.error "proof is not recent") else some (.ok ())

/-- `checkProof` as a build runs it. -/
def checkProofIn (requester did : String) (update : Value) : Task (Option (Except String Unit)) :=
  if !mediator.limits.recipientProof || did == requester then return some (.ok ())
  else
    match (update.get "proof").bind Value.asStr with
    | none => return some (.error "no proof")
    | some token =>
      match PossessionProof.unpack prim token resolver with
      | .error _ => return some (.error "proof does not verify")
      | .ok proof => do
        let now : ℕ ← call .now
        return checkClaimsIn build mediator requester did proof now

variable {build prim mediator resolver} {requester did : String} {proof : PossessionProof} {now : ℕ}

/-- A sum below 2^64 is the same in both builds. -/
theorem Build.add_of_lt {a b : ℕ} (h : a + b < 2 ^ 64) : build.add a b = some (a + b) := if_pos h

/-- The release build adds modulo 2^64. -/
theorem Build.add_wrapping (a b : ℕ) : wrapping.add a b = some (addU64 a b) := by
  rw [add]
  split_ifs with h
  · rw [addU64, Nat.mod_eq_of_lt h]
  · rfl

/-- The debug build panics exactly at a sum of 2^64 or more. -/
theorem Build.add_checked_eq_none {a b : ℕ} : checked.add a b = none ↔ 2 ^ 64 ≤ a + b := by
  rw [add]
  split_ifs with h
  · simpa using h
  · simpa using h

/-- A release build checks claims as `checkClaims` does. -/
theorem checkClaimsIn_wrapping (requester did : String) (proof : PossessionProof) (now : ℕ) :
    checkClaimsIn .wrapping mediator requester did proof now =
      some (checkClaims mediator requester did proof now) := by
  simp only [checkClaimsIn, checkClaims, Build.add_wrapping, Option.bind_some]
  split_ifs <;> grind

/-- A release build runs `checkProof`. -/
theorem checkProofIn_wrapping (requester did : String) (update : Value) :
    checkProofIn .wrapping prim mediator resolver requester did update =
      some <$> checkProof prim mediator resolver requester did update := by
  rw [checkProofIn, checkProof]
  split_ifs with hfree
  · rfl
  · cases (update.get "proof").bind Value.asStr with
    | none => rfl
    | some token =>
      simp only
      cases PossessionProof.unpack prim token resolver with
      | error e => rfl
      | ok proof =>
        simp only [checkClaimsIn_wrapping]
        rfl

/-- A proof by `did`, for this mediator, on behalf of `requester`. -/
structure MadeFor (mediator : Mediator) (requester did : String)
    (proof : PossessionProof) : Prop where
  iss : proof.iss = did
  aud : proof.aud = mediator.identity.did
  sub : proof.sub = requester

/-- What is left to check of such a proof is its time. The clock's sum fits. -/
theorem checkClaimsIn_madeFor (hmade : MadeFor mediator requester did proof)
    (hnow : now < maxClock) : checkClaimsIn build mediator requester did proof now =
      (build.add proof.iat proofMaxAgeSecs).map fun expiry =>
        if expiry < now ∨ now + proofMaxSkewSecs < proof.iat then .error "proof is not recent"
        else .ok () := by
  have hlatest : build.add now proofMaxSkewSecs = some (now + proofMaxSkewSecs) :=
    Build.add_of_lt (by rw [maxClock] at hnow; rw [proofMaxSkewSecs]; omega)
  -- the three claims about who is who hold, so only the times are left
  rw [checkClaimsIn, if_neg (not_not.mpr hmade.iss), if_neg (not_not.mpr hmade.aud),
    if_neg (not_not.mpr hmade.sub), hlatest]
  cases build.add proof.iat proofMaxAgeSecs with
  | none => rfl
  | some expiry =>
    by_cases hold : expiry < now
    · simp [hold]
    · by_cases hskew : now + proofMaxSkewSecs < proof.iat
      · simp [hskew]
      · simp [hold, hskew]

/-- Both builds accept the same times: where the sum does not fit, the time is too far ahead. -/
theorem checkClaimsIn_eq_ok_iff (hmade : MadeFor mediator requester did proof)
    (hnow : now < maxClock) : checkClaimsIn build mediator requester did proof now = some (.ok ()) ↔
      now ≤ proof.iat + 300 ∧ proof.iat ≤ now + 60 := by
  rw [checkClaimsIn_madeFor hmade hnow]
  rw [maxClock] at hnow
  by_cases hfits : proof.iat + proofMaxAgeSecs < 2 ^ 64
  · rw [Build.add_of_lt hfits, Option.map_some, proofMaxAgeSecs, proofMaxSkewSecs]
    split_ifs with hold
    · simp
      omega
    · simp
      omega
  · -- the clock is far below such a time
    have hahead : now + proofMaxSkewSecs < proof.iat := by
      rw [proofMaxAgeSecs] at hfits
      rw [proofMaxSkewSecs]
      omega
    have hrefused : ∀ expiry, (if expiry < now ∨ now + proofMaxSkewSecs < proof.iat then
        Except.error "proof is not recent" else .ok ()) =
          (.error "proof is not recent" : Except String Unit) :=
      fun expiry => if_pos (.inr hahead)
    simp only [hrefused]
    rw [proofMaxSkewSecs] at hahead
    constructor
    · intro h
      obtain ⟨expiry, -, herror⟩ := Option.map_eq_some_iff.mp h
      nomatch herror
    · rintro ⟨-, hskew⟩
      omega

/-- The additions panic exactly when the signer's sum does not fit. -/
theorem checkClaimsIn_checked_eq_none_iff (hmade : MadeFor mediator requester did proof)
    (hnow : now < maxClock) :
    checkClaimsIn .checked mediator requester did proof now = none ↔ 2 ^ 64 ≤ proof.iat + 300 := by
  rw [checkClaimsIn_madeFor hmade hnow, Option.map_eq_none_iff, Build.add_checked_eq_none,
    proofMaxAgeSecs]

/-- With a proof that unpacks, what remains is to read the clock and check the claims. -/
theorem run_checkProofIn {σ : Type} (surroundings : Handler Surroundings σ) (s : σ) {update : Value}
    {token : String} (hproof : mediator.limits.recipientProof) (hother : did ≠ requester)
    (htoken : update.get "proof" = some (.string token))
    (hunpack : PossessionProof.unpack prim token resolver = .ok proof) :
    ((checkProofIn build prim mediator resolver requester did update).run surroundings s).1 =
      checkClaimsIn build mediator requester did proof (surroundings .now s).1 := by
  have hneeded : ¬ (!mediator.limits.recipientProof || did == requester) = true := by
    simp [hproof, hother]
  rw [checkProofIn, if_neg hneeded, htoken]
  simp only [Option.bind_some, Value.asStr, hunpack]
  rfl

variable (prim mediator resolver requester did) in
/-- In these surroundings no addition of `check_proof` overflows, and it accepts an update with a
proof of this time exactly if the time is from five minutes ago to one minute ahead. -/
def AgeExact {σ : Type} (surroundings : Handler Surroundings σ) (s : σ) (update : Value)
    (iat : ℕ) : Prop :=
  ((checkProofIn .checked prim mediator resolver requester did update).run surroundings s).1 ≠
    none ∧
    ∀ build, ((checkProofIn build prim mediator resolver requester did
      update).run surroundings s).1 =
        some (.ok ()) ↔
      ((surroundings .now s).1 : ℤ) - 300 ≤ iat ∧ (iat : ℤ) ≤ (surroundings .now s).1 + 60

/-- The age of a proof that unpacks, and is for this mediator and mediation, is checked exactly as
long as the signer's time is more than five minutes below the largest one. -/
theorem proof_age_exact_iff {σ : Type} (surroundings : Handler Surroundings σ) (s : σ)
    {update : Value} {token : String} (hproof : mediator.limits.recipientProof)
    (hother : did ≠ requester) (htoken : update.get "proof" = some (.string token))
    (hunpack : PossessionProof.unpack prim token resolver = .ok proof)
    (hmade : MadeFor mediator requester did proof) (hnow : (surroundings .now s).1 < maxClock) :
    AgeExact prim mediator resolver requester did surroundings s update proof.iat ↔
      proof.iat + 300 < 2 ^ 64 := by
  have hrun : ∀ build, _ := fun build =>
    @run_checkProofIn build prim mediator resolver requester did proof σ
      surroundings s update token hproof
      hother htoken hunpack
  simp only [AgeExact, hrun, ne_eq, checkClaimsIn_checked_eq_none_iff hmade hnow,
    checkClaimsIn_eq_ok_iff hmade hnow]
  constructor
  · rintro ⟨hfits, -⟩
    omega
  · intro hfits
    exact ⟨by omega, fun _ => by omega⟩

end Checks

/-! ## The last time there is -/

namespace ProofAgeExample

open Didcomm.Loopback Dispatch.Loopback

/-- A proof that is made at `iat`. -/
def proofAt (iat : ℕ) : PossessionProof := ⟨"did:ex:b", self, "did:ex:a", iat⟩

def prim (iat : ℕ) : Primitives :=
  packages (fun _ => ⟨"did:ex:a", Message.new "1" 0 "" (.object [])⟩) self (proofAt iat)

def withProofs : Mediator :=
  mediator ⟨1000, ⟨60, 10, 1000⟩, 2, 0, true, 0⟩ false none

def update : Value := .object [("proof", .string "AA.AA.AA")]

/-- The proof of the example is unpacked to the one issued at 900. -/
theorem unpack_recent :
    PossessionProof.unpack (prim 900) "AA.AA.AA" (resolver fun _ => []) = .ok (proofAt 900) := by
  decide +kernel

/-- The check is exact for a proof made at `iat` when the clock stands at 1000. -/
def ExactAt (iat : ℕ) : Prop :=
  AgeExact (prim iat) withProofs (resolver fun _ => []) "did:ex:a" "did:ex:b" (calm 1000)
    Store.Inner.empty update iat

end ProofAgeExample

open ProofAgeExample

/-- For the largest time there is an addition panics. -/
theorem proof_age_overflows : ¬ ExactAt (2 ^ 64 - 1) := by
  rintro ⟨hpanics, -⟩
  refine hpanics ?_
  decide +kernel

/-- A proof of a hundred seconds ago; a release build checks it, and any other, as `checkProof`
does. -/
theorem proof_age_exact_iff_recent : (ExactAt 900 ↔ 900 + 300 < 2 ^ 64) ∧
    ∀ requester did update,
      checkProofIn .wrapping (prim 900) withProofs (Loopback.resolver fun _ => [])
        requester did update = some <$> checkProof (prim 900) withProofs
          (Loopback.resolver fun _ => []) requester did update := by
  refine ⟨?_, checkProofIn_wrapping⟩
  exact proof_age_exact_iff (Loopback.calm 1000) Store.Inner.empty rfl (by decide) rfl unpack_recent
    ⟨rfl, rfl, rfl⟩ (by decide)

end Dispatch
