import AlmenaMediator.Dispatch.Basic

/-!
# Live delivery

`dispatch/live.rs`: WebSocket sessions that asked for it get new messages for their mediation as
soon as they are queued. A session is known by its number, which stands for its end of the push
channel as well; a mediation that is not in the registry has no subscribers. The hub's lock is never
poisoned.
-/

namespace Dispatch

open Store (Queued)

/-- Messages a live session can fall behind by; beyond that, pushes are dropped. -/
def buffer : ℕ := 64

/-- A connection that can receive live deliveries (a WebSocket), with its push channel. -/
structure Session where
  /-- The mediation this session receives live messages for, once enabled. -/
  live : Option String
  /-- What is in the channel, oldest first. -/
  pushes : List Queued
  /-- Whether the connection still has its receiver. -/
  isOpen : Bool

namespace Session

/-- A session nobody opened. -/
def closed : Session := ⟨none, [], false⟩

/-- What `try_send` leaves: a closed channel takes nothing, and a full one drops the push. -/
def trySend (session : Session) (queued : Queued) : Session :=
  if session.isOpen && session.pushes.length < buffer then
    { session with pushes := session.pushes ++ [queued] }
  else session

/-- Sending to a session does not switch it. -/
@[simp] theorem trySend_live (session : Session) (queued : Queued) :
    (session.trySend queued).live = session.live := by
  unfold trySend
  split <;> rfl

/-- Sending to a session neither opens nor closes it. -/
@[simp] theorem trySend_isOpen (session : Session) (queued : Queued) :
    (session.trySend queued).isOpen = session.isOpen := by
  unfold trySend
  split <;> rfl

end Session

/-- The registry of live sessions per mediation, and the sessions. -/
structure LiveHub where
  nextId : ℕ
  subscribers : String → List ℕ
  session : ℕ → Session

namespace LiveHub

/-- `LiveHub::default`. -/
def empty : LiveHub := ⟨0, fun _ => [], fun _ => .closed⟩

/-- Changes a session. -/
def setSession (hub : LiveHub) (session : ℕ) (s : Session) : LiveHub :=
  { hub with session := Function.update hub.session session s }

/-- `LiveHub::open`: a new session. -/
def openSession (hub : LiveHub) : LiveHub :=
  { hub.setSession hub.nextId ⟨none, [], true⟩ with nextId := hub.nextId + 1 }

/-- Turns live mode off. -/
def disable (hub : LiveHub) (session : ℕ) : LiveHub :=
  match (hub.session session).live with
  | none => hub
  | some mediation =>
    { hub.setSession session { hub.session session with live := none } with
      subscribers := Function.update hub.subscribers mediation
        ((hub.subscribers mediation).filter fun id => id ≠ session) }

/-- Turns live mode on for `mediation` (off for any other it had). -/
def enable (hub : LiveHub) (session : ℕ) (mediation : String) : LiveHub :=
  let hub := hub.disable session
  { hub.setSession session { hub.session session with live := some mediation } with
    subscribers := Function.update hub.subscribers mediation
      (hub.subscribers mediation ++ [session]) }

/-- Whether some session has live mode on for `mediation`. -/
def isLive (hub : LiveHub) (mediation : String) : Bool := !(hub.subscribers mediation).isEmpty

/-- Pushes a newly queued message to the mediation's live sessions: one that is behind or gone just
misses the push, and one that is gone is forgotten. -/
def notify (hub : LiveHub) (mediation : String) (queued : Queued) : LiveHub where
  nextId := hub.nextId
  subscribers := Function.update hub.subscribers mediation
    ((hub.subscribers mediation).filter fun id => (hub.session id).isOpen)
  session := (hub.subscribers mediation).foldl
    (fun sessions id => Function.update sessions id ((sessions id).trySend queued)) hub.session

/-- The connection takes the oldest push out of its channel. -/
def recv (hub : LiveHub) (session : ℕ) : Option (Queued × LiveHub) :=
  match (hub.session session).pushes with
  | [] => none
  | queued :: rest =>
    some (queued, hub.setSession session { hub.session session with pushes := rest })

/-- The connection drops its receiver. -/
def drop (hub : LiveHub) (session : ℕ) : LiveHub :=
  hub.setSession session { hub.session session with pushes := [], isOpen := false }

/-! ## The registry -/

/-- The registry lists the sessions under the mediation they are live for, each once, and no open
one is missing. Sessions to come are not open. -/
structure Registered (hub : LiveHub) : Prop where
  live : ∀ mediation id, id ∈ hub.subscribers mediation → (hub.session id).live = some mediation
  nodup : ∀ mediation, (hub.subscribers mediation).Nodup
  listed : ∀ mediation id, (hub.session id).live = some mediation → (hub.session id).isOpen →
    id ∈ hub.subscribers mediation
  fresh : ∀ id, hub.nextId ≤ id → hub.session id = .closed

variable {hub : LiveHub} {session : ℕ} {mediation : String} {queued : Queued}

/-- The empty hub registers exactly its live sessions, which are none. -/
theorem registered_empty : Registered empty where
  live _ _ h := absurd h List.not_mem_nil
  nodup _ := List.nodup_nil
  listed _ _ _ h := nomatch h
  fresh _ _ := rfl

/-- The session that was set is the one found. -/
@[simp] theorem setSession_self (hub : LiveHub) (session : ℕ) (s : Session) :
    (hub.setSession session s).session session = s := Function.update_self ..

/-- Setting one session leaves the others as they were. -/
theorem setSession_of_ne (hub : LiveHub) {session id : ℕ} (h : id ≠ session) (s : Session) :
    (hub.setSession session s).session id = hub.session id := Function.update_of_ne h ..

/-- Opening a session keeps the hub's register, since a new session is not live. -/
theorem Registered.openSession (h : Registered hub) : Registered hub.openSession where
  live mediation id hid := by
    have hlive := h.live mediation id hid
    -- the new session is not listed anywhere
    have hne : id ≠ hub.nextId := by
      rintro rfl
      rw [h.fresh _ (Nat.le_refl _)] at hlive
      exact nomatch hlive
    exact (congrArg Session.live (setSession_of_ne hub hne _)).trans hlive
  nodup := h.nodup
  listed mediation id hlive hopen := by
    by_cases hid : id = hub.nextId
    · subst hid
      simp [LiveHub.openSession] at hlive
    · have hsame : hub.openSession.session id = hub.session id := setSession_of_ne hub hid _
      rw [hsame] at hlive hopen
      exact h.listed mediation id hlive hopen
  fresh id hid := by
    have hne : id ≠ hub.nextId := fun heq => Nat.not_succ_le_self _ (heq ▸ hid)
    exact (setSession_of_ne hub hne _).trans (h.fresh id (Nat.le_of_succ_le hid))

/-- Live mode is off after `disable`; the channel and the other sessions are as they were. -/
theorem disable_session (hub : LiveHub) (session : ℕ) :
    (hub.disable session).session = Function.update hub.session session
      { hub.session session with live := none } := by
  unfold disable
  split
  · rename_i hnone
    rw [← hnone, Function.update_eq_self]
  · rfl

/-- Switching a session off opens none. -/
theorem disable_nextId (hub : LiveHub)
    (session : ℕ) : (hub.disable session).nextId = hub.nextId := by
  unfold disable
  split <;> rfl

/-- A session that is not live is in no list. -/
theorem Registered.not_listed (h : Registered hub) (hlive : (hub.session session).live = none)
    (mediation : String) : session ∉ hub.subscribers mediation := by
  intro hmem
  rw [h.live mediation session hmem] at hlive
  exact nomatch hlive

/-- `disable` takes the session out of every list, and nothing else. -/
theorem Registered.mem_disable (h : Registered hub) (session id : ℕ) (mediation : String) :
    id ∈ (hub.disable session).subscribers mediation ↔
      id ∈ hub.subscribers mediation ∧ id ≠ session := by
  unfold disable
  split
  · rename_i hnone
    refine ⟨fun hmem => ⟨hmem, ?_⟩, And.left⟩
    rintro rfl
    exact h.not_listed hnone mediation hmem
  · rename_i other hother
    -- a session is listed under the mediation it is live for only
    by_cases hm : mediation = other
    · subst hm
      simp
    · simp only [Function.update_of_ne hm]
      refine ⟨fun hmem => ⟨hmem, ?_⟩, And.left⟩
      rintro rfl
      have hlive := h.live mediation id hmem
      rw [hother] at hlive
      exact hm (Option.some_inj.mp hlive).symm

/-- Switching a session off keeps the hub's register, since the session is taken out of it. -/
theorem Registered.disable (h : Registered hub)
    (session : ℕ) : Registered (hub.disable session) where
  live mediation id hid := by
    obtain ⟨hid, hne⟩ := (h.mem_disable session id mediation).mp hid
    rw [disable_session, Function.update_of_ne hne]
    exact h.live mediation id hid
  nodup mediation := by
    unfold LiveHub.disable
    split
    · exact h.nodup mediation
    · rename_i other _
      by_cases hm : mediation = other
      · subst hm
        simpa using (h.nodup mediation).filter _
      · simp only [Function.update_of_ne hm]
        exact h.nodup mediation
  listed mediation id hlive hopen := by
    rw [disable_session] at hlive hopen
    by_cases hid : id = session
    · subst hid
      simp at hlive
    · rw [Function.update_of_ne hid] at hlive hopen
      exact (h.mem_disable session id mediation).mpr ⟨h.listed mediation id hlive hopen, hid⟩
  fresh id hid := by
    rw [disable_nextId] at hid
    rw [disable_session]
    by_cases hne : id = session
    · subst hne
      rw [Function.update_self, h.fresh id hid]
      rfl
    · rw [Function.update_of_ne hne]
      exact h.fresh id hid

/-- Live mode is on after `enable`; the channel and the other sessions are as they were. -/
theorem enable_session (hub : LiveHub) (session : ℕ) (mediation : String) :
    (hub.enable session mediation).session = Function.update hub.session session
      { hub.session session with live := some mediation } := by
  have hsession : (hub.enable session mediation).session =
      Function.update (hub.disable session).session session
        { (hub.disable session).session session with live := some mediation } := rfl
  rw [hsession, disable_session, Function.update_idem, Function.update_self]

/-- Switching live mode on for an open session keeps the registry in order. -/
theorem Registered.enable (h : Registered hub) (hopen : session < hub.nextId) (mediation : String) :
    Registered (hub.enable session mediation) where
  live other id hid := by
    rw [enable_session]
    by_cases hne : id = session
    · subst hne
      rw [Function.update_self]
      -- the session is listed under this mediation only
      by_cases hm : other = mediation
      · rw [hm]
      · have hid : id ∈ (hub.disable id).subscribers other := by
          simpa [LiveHub.enable, Function.update_of_ne hm] using hid
        exact absurd rfl ((h.mem_disable id id other).mp hid).2
    · rw [Function.update_of_ne hne]
      refine h.live other id ((h.mem_disable session id other).mp ?_).1
      by_cases hm : other = mediation
      · subst hm
        simpa [LiveHub.enable, hne] using hid
      · simpa [LiveHub.enable, Function.update_of_ne hm] using hid
  nodup other := by
    by_cases hm : other = mediation
    · subst hm
      have hnot : session ∉ (hub.disable session).subscribers other := fun hmem =>
        ((h.mem_disable session session other).mp hmem).2 rfl
      simpa [LiveHub.enable] using List.nodup_append.mpr
        ⟨(h.disable session).nodup other, List.nodup_singleton _, fun a ha b hb heq =>
          hnot (by simp_all)⟩
    · simpa [LiveHub.enable, Function.update_of_ne hm] using (h.disable session).nodup other
  listed other id hlive hisOpen := by
    rw [enable_session] at hlive hisOpen
    by_cases hne : id = session
    · subst hne
      obtain rfl : mediation = other := by simpa using hlive
      simp [LiveHub.enable]
    · rw [Function.update_of_ne hne] at hlive hisOpen
      have hmem : id ∈ (hub.disable session).subscribers other :=
        (h.mem_disable session id other).mpr ⟨h.listed other id hlive hisOpen, hne⟩
      by_cases hm : other = mediation
      · subst hm
        simp [LiveHub.enable, hmem]
      · simpa [LiveHub.enable, Function.update_of_ne hm] using hmem
  fresh id hid := by
    have hnext : (hub.enable session mediation).nextId = hub.nextId := disable_nextId hub session
    rw [hnext] at hid
    rw [enable_session, Function.update_of_ne (fun heq => by omega)]
    exact h.fresh id hid

/-- Each session of a list is sent the push once. -/
theorem foldl_trySend (ids : List ℕ) (hnodup : ids.Nodup) (sessions : ℕ → Session) (id : ℕ) :
    ids.foldl (fun sessions id => Function.update sessions id ((sessions id).trySend queued))
      sessions id = if id ∈ ids then (sessions id).trySend queued else sessions id := by
  induction ids generalizing sessions with
  | nil => rfl
  | cons first rest ih =>
    obtain ⟨hfirst, hrest⟩ := List.nodup_cons.mp hnodup
    rw [List.foldl_cons, ih hrest]
    by_cases hid : id = first
    · subst hid
      rw [if_neg hfirst, if_pos List.mem_cons_self, Function.update_self]
    · have hmem : id ∈ first :: rest ↔ id ∈ rest := by simp [hid]
      simp only [hmem, Function.update_of_ne hid]

/-- A push goes to the mediation's subscribers, once to each. -/
theorem Registered.notify_session (h : Registered hub) (mediation : String) (queued : Queued)
    (id : ℕ) : (hub.notify mediation queued).session id =
      if id ∈ hub.subscribers mediation then (hub.session id).trySend queued else hub.session id :=
  foldl_trySend _ (h.nodup mediation) _ _

/-- A notification switches no session, and neither opens nor closes one. -/
theorem Registered.notify_live (h : Registered hub) (mediation : String) (queued : Queued)
    (id : ℕ) : ((hub.notify mediation queued).session id).live = (hub.session id).live ∧
      ((hub.notify mediation queued).session id).isOpen = (hub.session id).isOpen := by
  rw [h.notify_session]
  split
  · exact ⟨Session.trySend_live _ _, Session.trySend_isOpen _ _⟩
  · exact ⟨rfl, rfl⟩

/-- A notification keeps the hub's register. -/
theorem Registered.notify (h : Registered hub) (mediation : String) (queued : Queued) :
    Registered (hub.notify mediation queued) where
  live other id hid := by
    rw [(h.notify_live mediation queued id).1]
    refine h.live other id ?_
    by_cases hm : other = mediation
    · subst hm
      have hkept : id ∈ hub.subscribers other ∧ (hub.session id).isOpen := by
        simpa [LiveHub.notify] using hid
      exact hkept.1
    · simpa [LiveHub.notify, Function.update_of_ne hm] using hid
  nodup other := by
    by_cases hm : other = mediation
    · subst hm
      simpa [LiveHub.notify] using (h.nodup other).filter _
    · simpa [LiveHub.notify, Function.update_of_ne hm] using h.nodup other
  listed other id hlive hopen := by
    rw [(h.notify_live mediation queued id).1] at hlive
    rw [(h.notify_live mediation queued id).2] at hopen
    -- sessions that closed are dropped from the list, and no open one is
    have hmem := h.listed other id hlive hopen
    by_cases hm : other = mediation
    · subst hm
      simp [LiveHub.notify, hmem, hopen]
    · simpa [LiveHub.notify, Function.update_of_ne hm] using hmem
  fresh id hid := by
    have hclosed := h.fresh id hid
    rw [h.notify_session, if_neg, hclosed]
    exact h.not_listed (by rw [hclosed]; rfl) mediation

/-- What happens to a channel does not matter to the registry. -/
theorem Registered.setSession (h : Registered hub) (hopen : session < hub.nextId) {s : Session}
    (hlive : s.live = (hub.session session).live)
    (hisOpen : s.isOpen → (hub.session session).isOpen) :
    Registered (hub.setSession session s) where
  live other id hid := by
    by_cases hne : id = session
    · subst hne
      rw [setSession_self, hlive]
      exact h.live other id hid
    · rw [setSession_of_ne hub hne]
      exact h.live other id hid
  nodup := h.nodup
  listed other id hlive' hisOpen' := by
    by_cases hne : id = session
    · subst hne
      rw [setSession_self] at hlive' hisOpen'
      rw [hlive] at hlive'
      exact h.listed other id hlive' (hisOpen hisOpen')
    · rw [setSession_of_ne hub hne] at hlive' hisOpen'
      exact h.listed other id hlive' hisOpen'
  fresh id hid := by
    have hne : id ≠ session := fun heq => Nat.not_lt.mpr hid (heq ▸ hopen)
    rw [setSession_of_ne hub hne]
    exact h.fresh id hid

end LiveHub

end Dispatch
