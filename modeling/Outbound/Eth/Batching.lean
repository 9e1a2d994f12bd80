import Outbound.Batch.Batcher
import Outbound.Context
import Outbound.Eth.Client
import Outbound.Retry.Attempts

/-!
# Batching of contract calls

Calls of the latest block and calls that name a block are collected in two lanes. The calls of a
closed window that somebody still waits for are sent as one batch, again and again while the
retry policy allows it, under a context that none of the callers can end. In the end each caller
gets the element of its own call, or the error of the whole batch.
-/

namespace Outbound

namespace Eth

inductive Lane where
  | latest
  | archive
deriving Repr, DecidableEq

namespace Lane

def ofBlock (block : BlockRef) : Lane :=
  if block.isNone then .latest else .archive

def name : Lane → String
  | latest => "eth_call_latest"
  | archive => "eth_call_archive"

end Lane

/-- A call that waits to be sent, and who waits for its answer. -/
structure PendingCall (ι : Type) where
  caller : ι
  msg : CallMsg
  block : BlockRef
  ctx : Context

def PendingCall.request {ι : Type} (call : PendingCall ι) : Call :=
  ⟨"eth_call", callParams call.msg call.block⟩

/-- What an attempt at a batch comes to: an outcome for each call, or an error for all of them. -/
abbrev BatchOutcome := Outcome (List (Outcome Json))

/-- Gives every call the result in its place. A call without one gets an error. -/
def fanOut {ι : Type} : List (PendingCall ι) → List (Outcome Json) →
    List (ι × Outcome (List UInt8))
  | [], _ => []
  | call :: calls, [] =>
    (call.caller, .error (.decode "batch response shorter than request")) :: fanOut calls []
  | call :: calls, result :: results =>
    (call.caller, result.bind decodeBytes) :: fanOut calls results

/-- Gives every call the same error. -/
def failAll {ι : Type} (e : Error) (calls : List (PendingCall ι)) :
    List (ι × Outcome (List UInt8)) :=
  calls.map fun call ↦ (call.caller, .error e)

/-- A batch that is being sent. -/
structure CallBatch (ι : Type) where
  lane : Lane
  calls : List (PendingCall ι)
  endpoint : Role
  /-- The context of all attempts. -/
  ctx : Context
  attempts : Attempts Nanos

/-- What follows after an attempt at a batch. -/
inductive CallBatch.Next (ι : Type) where
  /-- The callers have their answers. -/
  | answered (answers : List (ι × Outcome (List UInt8)))
  /-- No attempt is left; the callers have the error of the last one. -/
  | failed (e : Error) (answers : List (ι × Outcome (List UInt8)))
  /-- Another attempt follows after a wait. -/
  | again (e : Error) (wait : Nanos) (batch : CallBatch ι)

namespace CallBatch

variable {ι : Type}

/-- The batch of the calls in a window whose callers still wait, unless there are none. -/
def ofWindow? (client : Client) (policy : BackoffPolicy) (lane : Lane)
    (abandoned : ι → Bool) (window : List (PendingCall ι)) (tokens : Tokens) :
    Option (CallBatch ι × Tokens) := do
  let calls := window.filter fun call ↦ !abandoned call.caller
  let first ← calls.head?
  let last ← calls.getLast?
  let (ctx, tokens) := last.ctx.withoutCancel tokens
  return (⟨lane, calls, client.endpoint first.block, ctx, policy.start⟩, tokens)

/-- What is sent, the same in every attempt. -/
def requests (batch : CallBatch ι) : List Call :=
  batch.calls.map PendingCall.request

/-- The end of an attempt. -/
def afterAttempt (batch : CallBatch ι) (maxRetries : Option Nat)
    (next? : Nanos → Option (Nanos × Nanos)) : BatchOutcome → Next ι
  | .ok results => .answered (fanOut batch.calls results)
  | .error e =>
    match batch.attempts.afterFailure? maxRetries next? with
    | some (wait, attempts) => .again e wait { batch with attempts }
    | none => .failed e (failAll e batch.calls)

end CallBatch

end Eth

namespace LogEvent

private def batchingTarget : String := "service_kit::client::eth::batchable"

private def batchFields {ι : Type} (batch : Eth.CallBatch ι) (e : Error) : List (String × Json) :=
  [("lane", .str batch.lane.name), ("size", .int batch.calls.length), ("error", .str e.message)]

def batchRetried {ι : Type} (batch : Eth.CallBatch ι) (e : Error) (wait : Nanos) : LogEvent :=
  ⟨.warn, batchingTarget, "eth_call batch failed, retrying",
    batchFields batch e ++ [("retry_in_ms", .int wait.millis)]⟩

def batchFailed {ι : Type} (batch : Eth.CallBatch ι) (e : Error) : LogEvent :=
  ⟨.error, batchingTarget, "eth_call batch failed", batchFields batch e⟩

end LogEvent

end Outbound
