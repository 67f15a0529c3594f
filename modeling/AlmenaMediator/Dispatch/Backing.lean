import AlmenaMediator.Dispatch.Authority

/-!
# What a job knows of the mediations it adds to

A job gives a mediation a recipient, a message, a device or a push marker only after an earlier call
of its own found that mediation. Between the two calls it knows no more than that. This follows from
what each kind of program guarantees anyway, so nothing is walked here again.
-/

namespace Dispatch

open Didcomm

section Backed

variable {rely : (e : Effect) → Surroundings.Reply e → Prop} {mediator : Mediator} {e : Effect}

/-- What an effect adds, it adds to a mediation that some answer found. -/
def Backed (rely : (e : Effect) → Surroundings.Reply e → Prop) : Effect → Prop
  | .store op => ∀ b m, op.Adds b m → Known rely m
  | _ => True

/-- A wallet's handler adds to the mediation of its requester, which `has_mediation` found. -/
theorem OnBehalfOf.backed {requester : String} {session : Option ℕ} {mayAdd : String → Prop}
    (h : OnBehalfOf mediator rely requester session mayAdd e) : Backed rely e := by
  cases e with
  | store op =>
    intro b m hadds
    -- a wallet adds to its own mediation, whose grant was found before
    cases op with
    | addRecipient m' did max =>
      have hm : m' = requester := h.1
      exact (hadds.2.symm.trans hm) ▸ h.2.1
    | setDevice m' service device =>
      have hm : m' = requester := h.1
      cases device with
      | none => exact hadds.elim
      | some device => exact (hadds.2.symm.trans hm) ▸ h.2
    | enqueue | claimPush => exact h.elim
    | _ => exact hadds.elim
  | _ => trivial

/-- Carrying a message adds it to a mediation that `mediation_of` named. -/
theorem Carries.backed (h : Carries mediator rely e) : Backed rely e := by
  cases e with
  | store op =>
    intro b m hadds
    cases op with
    | enqueue m' recipient payload now limits =>
      obtain ⟨-, -, hknown⟩ := h
      exact hadds.2 ▸ hknown
    | mediationOf | scheduleRelay => exact hadds.elim
    | _ => exact h.elim
  | _ => trivial

/-- Waking devices marks a mediation of which `devices` returned some. -/
theorem Wakes.backed {mediation : String} (h : Wakes mediator rely mediation e) :
    Backed rely e := by
  cases e with
  | store op =>
    intro b m hadds
    cases op with
    | claimPush m' now holdSecs =>
      obtain ⟨hm, -, -, hknown⟩ := h
      exact (hadds.2.symm.trans hm) ▸ hknown
    | devices | removeDevice => exact hadds.elim
    | _ => exact h.elim
  | _ => trivial

/-- The periodic tasks add nothing. -/
theorem Chore.backed (h : Chore e) : Backed rely e := by
  cases e with
  | store op =>
    intro b m hadds
    cases op with
    | dueRelays | finishRelay | scheduleRelay | removeIdleMediations => exact hadds.elim
    | _ => exact h.elim
  | _ => trivial

/-- What a job adds, it adds to a mediation that one of its calls found. -/
theorem program_backed {prim : Primitives} (hclock : ∀ now, rely .now now → now < maxClock)
    (job : Job) : (job.program prim mediator).Ensures rely (Backed rely) fun _ => True := by
  apply program_ensures hclock
  · exact fun _ h => h.backed
  · exact fun _ h => h.backed
  · exact fun _ _ h => h.backed
  · exact fun _ => trivial
  · exact fun _ _ _ _ _ _ _ _ _ _ _ h => h.backed

end Backed

end Dispatch
