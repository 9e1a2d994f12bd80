import Outbound.Retry.Backoff

/-!
# Repeated attempts

Work is attempted until it succeeds, until no attempt is left, or until what says the waits
gives up. What says the waits is any state `β` with a function that gives the next wait or none.
-/

namespace Outbound

/-- A run of attempts, the latest of which has not ended. -/
structure Attempts (β : Type) where
  /-- How many attempts were begun. -/
  begun : Nat := 1
  backoff : β

namespace Attempts

variable {α β ε : Type}

/-- The wait before the next attempt, now that the latest one has failed; none to give up. -/
def afterFailure? (maxRetries : Option Nat) (next? : β → Option (Nanos × β)) (run : Attempts β) :
    Option (Nanos × Attempts β) :=
  if maxRetries.any (· < run.begun) then none
  else (next? run.backoff).map fun (wait, backoff) ↦ (wait, ⟨run.begun + 1, backoff⟩)

/-- What a run came to: the failures that were followed by a wait, and the last result. -/
structure History (α ε : Type) where
  waits : List (ε × Nanos)
  /-- None while attempts are still to come. -/
  result : Option (Except ε α)

def History.prepend (failure : ε × Nanos) (h : History α ε) : History α ε :=
  { h with waits := failure :: h.waits }

/-- Makes attempts whose outcomes are given. -/
def history (maxRetries : Option Nat) (next? : β → Option (Nanos × β)) :
    List (Except ε α) → Attempts β → History α ε
  | [], _ => ⟨[], none⟩
  | .ok a :: _, _ => ⟨[], some (.ok a)⟩
  | .error e :: outcomes, run =>
    match run.afterFailure? maxRetries next? with
    | none => ⟨[], some (.error e)⟩
    | some (wait, run) => (history maxRetries next? outcomes run).prepend (e, wait)

end Attempts

/-- Every run starts over at the first interval. -/
def BackoffPolicy.start (p : BackoffPolicy) : Attempts Nanos :=
  { backoff := p.initial }

end Outbound
