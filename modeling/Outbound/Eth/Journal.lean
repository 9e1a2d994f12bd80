import Outbound.Eth.BatchingClient

/-!
# A journal of a batching client

What jobs find out about the callers of their windows, and what the transport sees of their
attempts, in the order in which it happens.
-/

namespace Outbound.Eth

/-- An attempt as the transport sees it. -/
structure Sending where
  endpoint : Role
  requests : List Call
  ctx : Context

def CallBatch.sending {ι : Type} (batch : CallBatch ι) : Sending :=
  ⟨batch.endpoint, batch.requests, batch.ctx⟩

namespace BatchingClient

variable {ι : Type}

inductive Entry (ι : Type) where
  /-- A job asks whether somebody waits for a call of its window; `gone` says that nobody does. -/
  | asked (job : Nat) (call : PendingCall ι) (gone : Bool)
  | sent (job : Nat) (sending : Sending)

namespace Entry

/-- What that job has found out. -/
def asked? (k : Nat) : Entry ι → Option (PendingCall ι × Bool)
  | asked job call gone => if job = k then some (call, gone) else none
  | sent _ _ => none

/-- What that job has sent. -/
def sent? (k : Nat) : Entry ι → Option Sending
  | asked _ _ _ => none
  | sent job sending => if job = k then some sending else none

end Entry

/-- What an event adds to the journal. -/
def noted? (s : BatchingClient ι) : Event ι → Option (Entry ι)
  | .check k =>
    match s.jobs[k]?.map BatchJob.phase with
    | some (.checking (call :: _)) => some (.asked k call (s.isAbandoned call.caller))
    | _ => none
  | .attempt k =>
    match s.jobs[k]?.map BatchJob.phase with
    | some (.ready batch _) => some (.sent k batch.sending)
    | _ => none
  | _ => none

variable [DecidableEq ι]

/-- A run with its journal. -/
inductive Journaled (x : Time × BatchingClient ι) :
    List (Entry ι) → Time × BatchingClient ι → Prop where
  | refl : Journaled x [] x
  | wait {journal : List (Entry ι)} {now later : Time} {s : BatchingClient ι}
    (run : Journaled x journal (now, s)) (h : now ≤ later) : Journaled x journal (later, s)
  | event {journal : List (Entry ι)} {now : Time} {s s' : BatchingClient ι}
    (run : Journaled x journal (now, s)) (e : Event ι) (h : s.step now e = some s') :
    Journaled x (journal ++ (s.noted? e).toList) (now, s')

end BatchingClient

end Outbound.Eth
