import Outbound.Reload

/-!
# Updates side by side

An update loads the value in force, prepares its own value with a look at the loaded one, and puts
its own value in force. Several parties may do so at once, and then each of these steps may come
between any two steps of another update.
-/

namespace Outbound

/-- How far an update has come. -/
inductive UpdatePhase (τ : Type) where
  | begun
  /-- It has loaded the value of that number. -/
  | loaded (number : Nat) (old : τ)
  /-- Its value is ready, and the one of that number was taken for the one it replaces. -/
  | prepared (number : Nat) (value : τ)
  | stored (number : Nat)

/-- It has loaded a value and has not stored its own. -/
def UpdatePhase.underWay {τ : Type} : UpdatePhase τ → Bool
  | loaded _ _ => true
  | prepared _ _ => true
  | _ => false

structure Update (τ : Type) where
  value : τ
  /-- It is made where tasks can be spawned. -/
  runtime : Bool
  phase : UpdatePhase τ := .begun

/-- A configuration with all updates of it. Values are numbered as they come into force. -/
structure SharedConfig (τ ρ : Type) where
  live : LiveConfig τ
  /-- The values that are no longer in force, oldest first. -/
  replaced : List τ := []
  updates : List (Update τ) := []
  /-- Which update passed the value of which number to its hook as the old one. -/
  passed : List (Nat × Nat) := []
  /-- What is kept for a while and released then, with the number of the value it belonged to. -/
  scheduled : List (Nat × ρ) := []
  /-- What was let go of at once, because no task could be spawned. -/
  dropped : List (Nat × ρ) := []

namespace SharedConfig

variable {τ ρ : Type}

def new (hook : Reloadable τ ρ) (value : τ) : SharedConfig τ ρ where
  live := (LiveConfig.new hook value).1

/-- All values that ever were in force, by their numbers. -/
def values (s : SharedConfig τ ρ) : List τ :=
  s.replaced ++ [s.live.load]

inductive Event (τ : Type) where
  | call (value : τ) (runtime : Bool)
  | load (update : Nat)
  | prepare (update : Nat)
  | store (update : Nat)

def setPhase (s : SharedConfig τ ρ) (u : Nat) (update : Update τ) (phase : UpdatePhase τ) :
    SharedConfig τ ρ :=
  { s with updates := s.updates.set u { update with phase } }

/-- The next step of an update. -/
def stepUpdate (hook : Reloadable τ ρ) (s : SharedConfig τ ρ) (u : Nat) (update : Update τ) :
    Event τ → Option (SharedConfig τ ρ)
  | .load _ =>
    match update.phase with
    | .begun => some (s.setPhase u update (.loaded s.replaced.length s.live.load))
    | _ => none
  | .prepare _ =>
    match update.phase with
    | .loaded number old =>
      let (value, leftovers) := hook.prepare (some old) update.value
      let left := leftovers.map fun leftover ↦ (number, leftover)
      some { s.setPhase u update (.prepared number value) with
        passed := s.passed ++ [(u, number)]
        scheduled := s.scheduled ++ if update.runtime then left else []
        dropped := s.dropped ++ if update.runtime then [] else left }
    | _ => none
  | .store _ =>
    match update.phase with
    | .prepared number value =>
      some { s.setPhase u update (.stored number) with
        live := ⟨value⟩
        replaced := s.replaced ++ [s.live.load] }
    | _ => none
  | .call _ _ => none

/-- The state after an event, if the event can happen. -/
def step (hook : Reloadable τ ρ) (s : SharedConfig τ ρ) : Event τ → Option (SharedConfig τ ρ)
  | .call value runtime => some { s with updates := s.updates ++ [{ value, runtime }] }
  | .load u => do s.stepUpdate hook u (← s.updates[u]?) (.load u)
  | .prepare u => do s.stepUpdate hook u (← s.updates[u]?) (.prepare u)
  | .store u => do s.stepUpdate hook u (← s.updates[u]?) (.store u)

/-- All that can come of updates, each step of which may come at any time. -/
inductive Run (hook : Reloadable τ ρ) (first : τ) : List (Event τ) → SharedConfig τ ρ → Prop where
  | new : Run hook first [] (new hook first)
  | event {events : List (Event τ)} {s s' : SharedConfig τ ρ} (run : Run hook first events s)
    (e : Event τ) (h : s.step hook e = some s') : Run hook first (events ++ [e]) s'

/-- The same, where no update begins while another one is under way. -/
inductive SerialRun (hook : Reloadable τ ρ) (first : τ) :
    List (Event τ) → SharedConfig τ ρ → Prop where
  | new : SerialRun hook first [] (new hook first)
  | event {events : List (Event τ)} {s s' : SharedConfig τ ρ}
    (run : SerialRun hook first events s) (e : Event τ) (h : s.step hook e = some s')
    (t : ∀ u, e = .load u → ∀ update ∈ s.updates, update.phase.underWay = false) :
    SerialRun hook first (events ++ [e]) s'

end SharedConfig

end Outbound
