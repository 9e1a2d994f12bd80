import Outbound.Agenda
import Outbound.Log
import Outbound.Metrics

/-!
# Self-healing clients

A wrapper keeps one client instance and replaces it when a failure calls for it. At most one
refresh runs at a time, and attempts keep a cooldown between them. A refresh is a sequence of
small steps, so that other callers can be looked at between any two of them; `refresh` is the
sequence without anyone in between.
-/

namespace Outbound

structure RefreshPolicy where
  /-- The least time between two attempts. -/
  cooldown : Time
  /-- How long a replaced instance is kept. -/
  closeDelay : Time
deriving Repr, DecidableEq

def RefreshPolicy.default : RefreshPolicy := ⟨10000, 60000⟩

inductive RefreshState where
  | healthy
  | refreshInProgress
  | cooldown
deriving Repr, DecidableEq

def RefreshState.name : RefreshState → String
  | healthy => "Healthy"
  | refreshInProgress => "RefreshInProgress"
  | cooldown => "Cooldown"

inductive RefreshOutcome where
  | refreshed
  | inProgress
  | cooldown
  | failed
deriving Repr, DecidableEq

namespace RefreshOutcome

def name : RefreshOutcome → String
  | refreshed => "Refreshed"
  | inProgress => "InProgress"
  | cooldown => "Cooldown"
  | failed => "Failed"

/-- The label under which an outcome is counted. -/
def label : RefreshOutcome → String
  | refreshed => "refreshed"
  | inProgress => "in_progress"
  | cooldown => "cooldown"
  | failed => "failed"

end RefreshOutcome

/-- A wrapper around instances of type `γ`. -/
structure Refreshable (γ : Type) where
  policy : RefreshPolicy
  current : γ
  /-- The number of replacements so far. -/
  generation : Nat := 0
  /-- When the last attempt was made. -/
  lastAttempt : Option Time := none
  /-- A refresh is running. -/
  busy : Bool := false

namespace Refreshable

variable {γ ε : Type}

/-- The cooldown after the last attempt is over, or there was none. -/
def rested (w : Refreshable γ) (now : Time) : Bool :=
  match w.lastAttempt with
  | some last => last + w.policy.cooldown ≤ now
  | none => true

def state (w : Refreshable γ) (now : Time) : RefreshState :=
  if w.busy then .refreshInProgress
  else if w.rested now then .healthy
  else .cooldown

/-- Takes the right to refresh, unless someone has it. -/
def acquire (w : Refreshable γ) : Option (Refreshable γ) :=
  if w.busy then none else some { w with busy := true }

/-- Notes an attempt. -/
def stamp (w : Refreshable γ) (now : Time) : Refreshable γ :=
  { w with lastAttempt := some now }

/-- Replaces the instance; the old one is returned. -/
def install (w : Refreshable γ) (client : γ) : γ × Refreshable γ :=
  (w.current, { w with current := client, generation := w.generation + 1 })

/-- Gives up the right to refresh. -/
def release (w : Refreshable γ) : Refreshable γ :=
  { w with busy := false }

theorem state_eq_refreshInProgress_iff (w : Refreshable γ) (now : Time) :
    w.state now = .refreshInProgress ↔ w.busy = true := by
  cases h : w.busy <;> cases hr : w.rested now <;> simp [state, h, hr]

theorem acquire_eq_none_iff (w : Refreshable γ) : w.acquire = none ↔ w.busy = true := by
  cases h : w.busy <;> simp [acquire, h]

theorem acquire_of_not_busy {w : Refreshable γ} (h : w.busy = false) :
    w.acquire = some { w with busy := true } := by
  simp [acquire, h]

theorem rested_mono {w : Refreshable γ} {now later : Time} (h : w.rested now = true)
    (hle : now ≤ later) : w.rested later = true := by
  cases hlast : w.lastAttempt with
  | none => simp [rested, hlast]
  | some last =>
    have hover : last + w.policy.cooldown ≤ now := by simpa [rested, hlast] using h
    simpa [rested, hlast] using Nat.le_trans hover hle

/-- What a refresh came to: its outcome, the wrapper after it, and the instance it replaced. -/
structure Refreshed (γ : Type) where
  outcome : RefreshOutcome
  wrapper : Refreshable γ
  replaced : Option γ := none

/-- The wrapper as `connect` finds it, if a refresh at this moment gets to connecting. -/
def begin? (w : Refreshable γ) (now : Time) : Except RefreshOutcome (Refreshable γ) :=
  match w.acquire with
  | none => .error .inProgress
  | some held => if held.rested now then .ok (held.stamp now) else .error .cooldown

section

variable {w held : Refreshable γ} {t : Time}

theorem begin?_of_busy (h : w.busy = true) : w.begin? t = .error .inProgress := by
  simp [begin?, (acquire_eq_none_iff w).2 h]

theorem begin?_of_rested (hacquire : w.acquire = some held) (h : held.rested t = true) :
    w.begin? t = .ok (held.stamp t) := by
  simp [begin?, hacquire, h]

theorem begin?_of_cooling (hacquire : w.acquire = some held) (h : held.rested t = false) :
    w.begin? t = .error .cooldown := by
  simp [begin?, hacquire, h]

end

/-- The end of a refresh that got to connecting. -/
def finish (held : Refreshable γ) (connected : Except ε γ) : Refreshed γ :=
  match connected with
  | .error _ => { outcome := .failed, wrapper := held.release }
  | .ok client =>
    let (old, w) := held.install client
    { outcome := .refreshed, wrapper := w.release, replaced := some old }

/-- A refresh that nobody interrupts; `connected` is what connecting gives, if it comes to it. -/
def refresh (w : Refreshable γ) (now : Time) (connected : Except ε γ) : Refreshed γ :=
  match w.begin? now with
  | .error outcome => { outcome, wrapper := w }
  | .ok held => finish held connected

end Refreshable

/-- A refresh that was not turned away by a running one is counted. -/
def Metrics.countRefresh (metrics : Metrics) (client : String) (outcome : RefreshOutcome) :
    Metrics :=
  if outcome = .inProgress then metrics else metrics.count (.clientRefresh client outcome.label)

/-- References to instances: one entry for each owner. An instance lives as long as it has an
owner. -/
structure Owners (γ : Type) where
  refs : List γ := []

namespace Owners

variable {γ : Type} [BEq γ]

def acquire (owners : Owners γ) (client : γ) : Owners γ :=
  ⟨client :: owners.refs⟩

def release (owners : Owners γ) (client : γ) : Owners γ :=
  ⟨owners.refs.erase client⟩

def alive (owners : Owners γ) (client : γ) : Bool :=
  owners.refs.contains client

end Owners

namespace LogEvent

private def refreshTarget : String := "service_kit::reconnect"

def failureObserved (client error : String) : LogEvent :=
  ⟨.debug, refreshTarget, "connection failure observed",
    [("client", .str client), ("error", .str error)]⟩

def rebuildFailed (client error : String) : LogEvent :=
  ⟨.error, refreshTarget, "failed to rebuild client, keeping the current one",
    [("client", .str client), ("error", .str error)]⟩

def clientRefreshed (client : String) (generation : Nat) : LogEvent :=
  ⟨.info, refreshTarget, "client refreshed after connection failure",
    [("client", .str client), ("generation", .int generation)]⟩

def clientReleased (client : String) (stillUsed : Bool) : LogEvent :=
  ⟨.debug, refreshTarget, "released replaced client",
    [("client", .str client), ("still_used", .bool stillUsed)]⟩

end LogEvent

end Outbound
