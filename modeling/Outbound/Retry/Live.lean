import Outbound.Reload
import Outbound.Retry.Attempts
import Outbound.TimedRun

/-!
# Attempts at work

An attempt ends after any time and with any outcome. Of a failure that another attempt follows,
somebody is told together with the wait between the two, and the next attempt begins when the wait
is over. Settings keep the policy that was last built from them.
-/

namespace Outbound

/-- What a run of attempts goes by: how many attempts may follow the first one, what says the waits,
and what is made of it by the one who is told of failures. -/
structure RetryPlan (β σ ε : Type) where
  maxRetries : Option Nat
  next? : β → Option (Nanos × β)
  notify : σ → ε → Nanos → σ

def BackoffPolicy.plan {β σ ε : Type} (p : BackoffPolicy) (next? : β → Option (Nanos × β))
    (notify : σ → ε → Nanos → σ) : RetryPlan β σ ε :=
  ⟨p.maxRetries, next?, notify⟩

/-- Nobody is told of failures. -/
def BackoffPolicy.silentPlan {β : Type} (p : BackoffPolicy) (next? : β → Option (Nanos × β))
    (ε : Type) : RetryPlan β Unit ε :=
  p.plan next? fun _ _ _ ↦ ()

namespace RetryPlan

variable {α β σ ε : Type}

/-- What says the waits, after so many answers. -/
def backoffAfter? (plan : RetryPlan β σ ε) (backoff : β) : Nat → Option β
  | 0 => some backoff
  | i + 1 => (plan.backoffAfter? backoff i).bind fun b ↦ (plan.next? b).map Prod.snd

/-- The answer of that index: a wait, or none to give up. -/
def answer? (plan : RetryPlan β σ ε) (backoff : β) (i : Nat) : Option Nanos :=
  (plan.backoffAfter? backoff i).bind fun b ↦ (plan.next? b).map Prod.fst

/-- No attempt follows the one of index `i`: it succeeds, no retry is left, or the answer after it
is to give up. -/
def StopsAfter (plan : RetryPlan β σ ε) (backoff : β) (outcome? : Nat → Option (Except ε α))
    (i : Nat) : Prop :=
  (∃ a, outcome? i = some (.ok a)) ∨ plan.maxRetries = some i ∨ plan.answer? backoff i = none

end RetryPlan

inductive RetryPhase (α ε : Type) where
  | attempting
  | waiting (due : Time)
  | returned (outcome : Except ε α)

def RetryPhase.returned? {α ε : Type} : RetryPhase α ε → Option (Except ε α)
  | returned outcome => some outcome
  | _ => none

/-- One of the things that a run of attempts does. -/
inductive RetryAct (α ε : Type) where
  | began
  | ended (outcome : Except ε α)
  | told (e : ε) (wait : Nanos)

namespace RetryAct

variable {α ε : Type}

def isBegan : RetryAct α ε → Bool
  | began => true
  | _ => false

def outcome? : RetryAct α ε → Option (Except ε α)
  | ended outcome => some outcome
  | _ => none

def notice? : RetryAct α ε → Option (ε × Nanos)
  | told e wait => some (e, wait)
  | _ => none

/-- What can come next: the end of an attempt after its beginning, word of a failure at once, and
another attempt when the wait that was told of is over. -/
def Follows : Time × RetryAct α ε → Time × RetryAct α ε → Prop
  | (t, began), (later, ended _) => t ≤ later
  | (t, ended (.error e)), (later, told e' _) => later = t ∧ e' = e
  | (t, told _ wait), (later, began) => t + wait.ticks ≤ later
  | _, _ => False

end RetryAct

structure LiveRetry (β σ α ε : Type) where
  attempts : Attempts β
  notifier : σ
  phase : RetryPhase α ε := .attempting
  /-- What was done and when, oldest first. -/
  log : List (Time × RetryAct α ε)

namespace LiveRetry

variable {α β σ ε : Type}

/-- A run whose first attempt begins. -/
def new (start : Time) (backoff : β) (notifier : σ) : LiveRetry β σ α ε :=
  { attempts := { backoff }, notifier, log := [(start, .began)] }

inductive Event (α ε : Type) where
  | ends (outcome : Except ε α)
  /-- The timer of a wait fires. -/
  | wakes

def Event.outcome? : Event α ε → Option (Except ε α)
  | .ends outcome => some outcome
  | .wakes => none

/-- The run when its attempt has ended. -/
def afterAttempt (plan : RetryPlan β σ ε) (now : Time) (s : LiveRetry β σ α ε) :
    Except ε α → LiveRetry β σ α ε
  | .ok a =>
    { s with phase := .returned (.ok a), log := s.log ++ [(now, .ended (.ok a))] }
  | .error e =>
    match s.attempts.afterFailure? plan.maxRetries plan.next? with
    | none => { s with phase := .returned (.error e), log := s.log ++ [(now, .ended (.error e))] }
    | some (wait, attempts) =>
      { attempts
        notifier := plan.notify s.notifier e wait
        phase := .waiting (now + wait.ticks)
        log := s.log ++ [(now, .ended (.error e)), (now, .told e wait)] }

/-- The run after an event, if the event can happen. -/
def step (plan : RetryPlan β σ ε) (now : Time) (s : LiveRetry β σ α ε) :
    Event α ε → Option (LiveRetry β σ α ε)
  | .ends outcome =>
    match s.phase with
    | .attempting => some (s.afterAttempt plan now outcome)
    | _ => none
  | .wakes =>
    match s.phase with
    | .waiting due =>
      if due ≤ now then some { s with phase := .attempting, log := s.log ++ [(now, .began)] }
      else none
    | _ => none

/-- All that can come of a run of attempts. -/
abbrev Run (plan : RetryPlan β σ ε) :
    Time × LiveRetry β σ α ε → List (Event α ε) → Time × LiveRetry β σ α ε → Prop :=
  TimedRun (step plan)

/-- How many attempts were begun. -/
def begun (s : LiveRetry β σ α ε) : Nat :=
  s.log.countP (·.2.isBegan)

/-- What the attempts came to. -/
def outcomes (s : LiveRetry β σ α ε) : List (Except ε α) :=
  s.log.filterMap (·.2.outcome?)

/-- What was told of failures. -/
def notices (s : LiveRetry β σ α ε) : List (ε × Nanos) :=
  s.log.filterMap (·.2.notice?)

end LiveRetry

/-- Settings with the policy that was last built from them. -/
structure BackoffConfig where
  settings : BackoffSettings
  policy : BackoffPolicy := {}

/-- A policy is built for new settings, and those replaced leave nothing behind. -/
def BackoffConfig.reloadable : Reloadable BackoffConfig Empty :=
  .building (fun config ↦ { config with policy := config.settings.policy }) fun _ ↦ []

end Outbound
