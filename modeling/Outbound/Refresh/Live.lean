import Outbound.Refresh

/-!
# A self-healing client at work

Callers run operations on the current instance, report failures and ask for refreshes, any number
of them at a time and also from inside the connecting of a refresh. Every small act of a caller is
an event, so that the acts of all callers come in any order. Instances are known by number, in the
order in which they were made. What connecting gave, when attempts were made and what became of
each refresh is kept beside the wrapper.
-/

namespace Outbound

/-- The label of a factory's clients, and the failures that call for a new one. -/
structure Factory (ε : Type) where
  name : String
  shouldRefresh : ε → Bool

/-- What a caller wants of a wrapper. -/
inductive RefreshRequest (ε : Type) where
  /-- To run an operation on the current instance. -/
  | execute
  /-- To report the failure of an operation. -/
  | observe (failure : ε)
  | refresh

/-- How far a caller has come that has the right to refresh. -/
inductive HolderPhase (γ : Type) where
  /-- The cooldown has not been looked at. -/
  | acquired
  /-- The cooldown was over. -/
  | rested
  /-- The clock was read, and the attempt has not been noted. -/
  | timed (time : Time)
  | stamped
  | connecting
  | connected (client : γ)
  /-- The new instance is in place, and the old one is in the hands of the caller. -/
  | swapped (old : Nat)
  | counted (old : Nat)
  /-- All that is left to do is to give up the right. -/
  | leaving (outcome : RefreshOutcome)

inductive CallerPhase (γ ε : Type) where
  /-- The operation runs on that instance. -/
  | operating (client : Nat)
  | observing (failure : ε)
  /-- A refresh is wanted, and the right to it has not been asked for. -/
  | asking
  /-- The caller has the right to refresh since that time, and found the wrapper in that state. -/
  | holding (since : Time) (found : Refreshable Nat) (phase : HolderPhase γ)
  /-- The refresh has ended and has not been counted. -/
  | counting (outcome : RefreshOutcome)
  | done (outcome : Option RefreshOutcome)

namespace CallerPhase

variable {γ ε : Type}

def isHolding : CallerPhase γ ε → Bool
  | .holding _ _ _ => true
  | _ => false

def isConnecting : CallerPhase γ ε → Bool
  | .holding _ _ .connecting => true
  | _ => false

def isDone : CallerPhase γ ε → Bool
  | .done _ => true
  | _ => false

end CallerPhase

structure RefreshCaller (γ ε : Type) where
  /-- The caller from inside whose connecting the call is made. -/
  inside : Option Nat
  request : RefreshRequest ε
  /-- The instance that the operation was given. -/
  ranOn : Option Nat := none
  /-- What the operation failed with. The caller gets it as it is. -/
  failure : Option ε := none
  phase : CallerPhase γ ε

structure RefreshRecord where
  caller : Nat
  /-- When the right to refresh was asked for, and the wrapper at that moment. -/
  began : Time
  found : Refreshable Nat
  /-- When the right was given up, or refused, and the wrapper after that. -/
  ended : Time
  left : Refreshable Nat
  outcome : RefreshOutcome

inductive GracePhase where
  | spawned
  | sleeping (due : Time)
  | done
deriving Repr, DecidableEq

/-- The task that keeps a replaced instance for a while. -/
structure Grace where
  client : Nat
  since : Time
  phase : GracePhase
deriving Repr, DecidableEq

namespace Refreshable

variable {γ : Type}

/-- The first half of `install`: the new instance takes the place of the old one. -/
def swap (w : Refreshable γ) (client : γ) : Refreshable γ :=
  { w with current := client }

/-- The second half of `install`: the replacement is counted. -/
def countReplacement (w : Refreshable γ) : Refreshable γ :=
  { w with generation := w.generation + 1 }

theorem install_eq (w : Refreshable γ) (client : γ) :
    w.install client = (w.current, (w.swap client).countReplacement) := rfl

end Refreshable

/-- A wrapper with its callers, the owners of its instances, and its history. -/
structure LiveRefreshable (γ ε : Type) where
  factory : Factory ε
  wrapper : Refreshable Nat
  /-- The clients of all instances, by number. -/
  instances : List γ
  /-- What connecting has given, first for the wrapper itself and then for its refreshes. -/
  connects : List (Except ε γ)
  /-- Tasks can be spawned. -/
  runtime : Bool := true
  callers : List (RefreshCaller γ ε) := []
  /-- The instances that somebody has got hold of. -/
  held : List Nat := []
  graces : List Grace := []
  owners : Owners Nat := ⟨[0]⟩
  /-- The times of attempts, in the order in which they were noted. -/
  attempts : List Time := []
  refreshes : List RefreshRecord := []
  metrics : Metrics := []

namespace LiveRefreshable

variable {γ ε : Type}

def new (factory : Factory ε) (policy : RefreshPolicy) (runtime : Bool)
    (connected : Except ε γ) : Except ε (LiveRefreshable γ ε) :=
  connected.map fun client ↦
    { factory, runtime
      wrapper := { policy, current := 0 }
      instances := [client]
      connects := [.ok client] }

inductive Event (γ ε : Type) where
  /-- Somebody new calls, perhaps from inside the connecting of another caller. -/
  | call (inside : Option Nat) (request : RefreshRequest ε)
  | finish (caller : Nat) (failure : Option ε)
  | abandon (caller : Nat)
  /-- A caller does the next thing that is up to it. -/
  | act (caller : Nat)
  /-- Connecting gives a caller a client or an error. -/
  | connected (caller : Nat) (result : Except ε γ)
  | hold
  | letGo (client : Nat)
  /-- The task that keeps a replaced instance does the next thing. -/
  | grace (task : Nat)

def isConnecting (s : LiveRefreshable γ ε) (k : Nat) : Bool :=
  s.callers[k]?.any (·.phase.isConnecting)

def setPhase (s : LiveRefreshable γ ε) (k : Nat) (c : RefreshCaller γ ε)
    (phase : CallerPhase γ ε) : LiveRefreshable γ ε :=
  { s with callers := s.callers.set k { c with phase } }

/-- A new caller. An operation is given the current instance. -/
def begin (s : LiveRefreshable γ ε) (inside : Option Nat) (request : RefreshRequest ε) :
    LiveRefreshable γ ε :=
  match request with
  | .execute =>
    let client := s.wrapper.current
    { s with
      callers := s.callers ++ [{ inside, request, ranOn := client, phase := .operating client }]
      owners := s.owners.acquire client }
  | .observe failure =>
    { s with callers := s.callers ++ [{ inside, request, phase := .observing failure }] }
  | .refresh => { s with callers := s.callers ++ [{ inside, request, phase := .asking }] }

/-- A replaced instance is kept for a while by a task, or dropped if there can be none. -/
def retire (now : Time) (s : LiveRefreshable γ ε) (old : Nat) : LiveRefreshable γ ε :=
  if s.runtime then { s with graces := s.graces ++ [⟨old, now, .spawned⟩] }
  else { s with owners := s.owners.release old }

/-- The next act of a caller that has the right to refresh. -/
def actHolding (now : Time) (s : LiveRefreshable γ ε) (k : Nat) (c : RefreshCaller γ ε)
    (since : Time) (found : Refreshable Nat) : HolderPhase γ → Option (LiveRefreshable γ ε)
  | .acquired =>
    some (s.setPhase k c
      (.holding since found (if s.wrapper.rested now then .rested else .leaving .cooldown)))
  | .rested => some (s.setPhase k c (.holding since found (.timed now)))
  | .timed time =>
    some { s.setPhase k c (.holding since found .stamped) with
      wrapper := s.wrapper.stamp time
      attempts := s.attempts ++ [time] }
  | .stamped => some (s.setPhase k c (.holding since found .connecting))
  | .connecting => none
  | .connected client =>
    some { s.setPhase k c (.holding since found (.swapped s.wrapper.current)) with
      wrapper := s.wrapper.swap s.instances.length
      instances := s.instances ++ [client]
      owners := s.owners.acquire s.instances.length }
  | .swapped old =>
    some { s.setPhase k c (.holding since found (.counted old)) with
      wrapper := s.wrapper.countReplacement }
  | .counted old =>
    some ((s.setPhase k c (.holding since found (.leaving .refreshed))).retire now old)
  | .leaving outcome =>
    some { s.setPhase k c (.counting outcome) with
      wrapper := s.wrapper.release
      refreshes := s.refreshes ++ [⟨k, since, found, now, s.wrapper.release, outcome⟩] }

def act (now : Time) (s : LiveRefreshable γ ε) (k : Nat) (c : RefreshCaller γ ε) :
    Option (LiveRefreshable γ ε) :=
  match c.phase with
  | .operating _ => none
  | .observing failure =>
    some (s.setPhase k c (if s.factory.shouldRefresh failure then .asking else .done none))
  | .asking =>
    match s.wrapper.acquire with
    | none =>
      some { s.setPhase k c (.done (some .inProgress)) with
        refreshes := s.refreshes ++ [⟨k, now, s.wrapper, now, s.wrapper, .inProgress⟩] }
    | some held =>
      some { s.setPhase k c (.holding now s.wrapper .acquired) with wrapper := held }
  | .holding since found phase => s.actHolding now k c since found phase
  | .counting outcome =>
    some { s.setPhase k c (.done (some outcome)) with
      metrics := s.metrics.countRefresh s.factory.name outcome }
  | .done _ => none

def actGrace (now : Time) (s : LiveRefreshable γ ε) (n : Nat) (grace : Grace) :
    Option (LiveRefreshable γ ε) :=
  match grace.phase with
  | .spawned =>
    some { s with
      graces := s.graces.set n
        { grace with phase := .sleeping (now + s.wrapper.policy.closeDelay) } }
  | .sleeping due =>
    if due ≤ now then
      some { s with
        graces := s.graces.set n { grace with phase := .done }
        owners := s.owners.release grace.client }
    else none
  | .done => none

/-- The state after an event, if the event can happen. -/
def step (now : Time) (s : LiveRefreshable γ ε) : Event γ ε → Option (LiveRefreshable γ ε)
  | .call inside request =>
    if inside.all s.isConnecting then some (s.begin inside request) else none
  | .finish k failure => do
    let c ← s.callers[k]?
    match c.phase with
    | .operating client =>
      return { s.setPhase k { c with failure }
          (match failure with
            | some e => .observing e
            | none => .done none) with
        owners := s.owners.release client }
    | _ => none
  | .abandon k => do
    let c ← s.callers[k]?
    match c.phase with
    | .operating client =>
      return { s.setPhase k c (.done none) with owners := s.owners.release client }
    | _ => none
  | .act k => do
    let c ← s.callers[k]?
    s.act now k c
  | .connected k result => do
    let c ← s.callers[k]?
    match c.phase with
    | .holding since found .connecting =>
      if s.callers.any fun d ↦ d.inside = some k && !d.phase.isDone then none
      else
        return { s.setPhase k c (.holding since found
            (match result with
              | .ok client => .connected client
              | .error _ => .leaving .failed)) with
          connects := s.connects ++ [result] }
    | _ => none
  | .hold =>
    some { s with
      held := s.wrapper.current :: s.held
      owners := s.owners.acquire s.wrapper.current }
  | .letGo client =>
    if client ∈ s.held then
      some { s with held := s.held.erase client, owners := s.owners.release client }
    else none
  | .grace n => do
    let grace ← s.graces[n]?
    s.actGrace now n grace

/-- One thing happens after the other, with any time in between. -/
inductive Run (x : Time × LiveRefreshable γ ε) :
    List (Event γ ε) → Time × LiveRefreshable γ ε → Prop where
  | refl : Run x [] x
  | wait {events : List (Event γ ε)} {now later : Time} {s : LiveRefreshable γ ε}
    (run : Run x events (now, s)) (h : now ≤ later) : Run x events (later, s)
  | event {events : List (Event γ ε)} {now : Time} {s s' : LiveRefreshable γ ε}
    (run : Run x events (now, s)) (e : Event γ ε) (h : s.step now e = some s') :
    Run x (events ++ [e]) (now, s')

/-- What comes of a list of events, each so long after the one before. -/
def play (x : Time × LiveRefreshable γ ε) :
    List (Time × Event γ ε) → Option (Time × LiveRefreshable γ ε)
  | [] => some x
  | (wait, e) :: rest => do
    let s ← x.2.step (x.1 + wait) e
    play (x.1 + wait, s) rest

end LiveRefreshable

end Outbound
