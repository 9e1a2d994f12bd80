import Outbound.Batch.Live
import Outbound.Eth.Batching
import Outbound.Metrics
import Outbound.Slot

/-!
# A batching client at work

Callers put calls into two lanes and wait, and each closed window becomes a job: a task that finds
out who still waits, sends the batch until an attempt succeeds or the retry policy gives up, and
then gives every caller its result. Callers, lanes and jobs act in any order; each of their acts is
an event. All of them act inside a runtime.
-/

namespace Outbound.Eth

/-- A call as its caller sees it. -/
structure Caller where
  msg : CallMsg
  block : BlockRef
  ctx : Context
  /-- The lane took the call. -/
  accepted : Bool := true
  slot : Slot (List UInt8) := {}
  /-- When the call returned, and with what. -/
  returned : Option (Time × Outcome (List UInt8)) := none

inductive JobPhase (ι : Type) where
  /-- Those who made the calls of `rest` have not been asked whether they still wait. -/
  | checking (rest : List (PendingCall ι))
  /-- The next attempt is made when its time has come. -/
  | ready (batch : CallBatch ι) (due : Time)
  | sent (batch : CallBatch ι)
  /-- The results in `left` have not been given yet. -/
  | delivering (batch : CallBatch ι) (outcome : BatchOutcome)
    (left : List (ι × Outcome (List UInt8)))
  /-- Nothing was sent if nobody waited. -/
  | done (result : Option (CallBatch ι × BatchOutcome))

/-- The task that sends the batch of a window. -/
structure BatchJob (ι : Type) where
  lane : Lane
  /-- The number of the window in its lane. -/
  number : Nat
  window : List (PendingCall ι)
  /-- Those who did not wait any more when they were asked. -/
  gone : List ι := []
  /-- The errors of the attempts that were followed by another one. -/
  failures : List Error := []
  phase : JobPhase ι

structure BatchingClient (ι : Type) where
  client : Client
  policy : BackoffPolicy
  latest : LiveBatcher (PendingCall ι)
  archive : LiveBatcher (PendingCall ι)
  tokens : Tokens := {}
  /-- The tokens of the batches, which no caller gets hold of. -/
  detached : List Nat := []
  callers : ι → Option Caller := fun _ ↦ none
  jobs : List (BatchJob ι) := []
  /-- All results given by jobs, and whether each was the first one of its caller. -/
  given : List (ι × Outcome (List UInt8) × Bool) := []
  metrics : Metrics := []

namespace BatchingClient

variable {ι : Type}

def new (client : Client) (policy : BackoffPolicy) (limits : BatchLimits) : BatchingClient ι where
  client := client
  policy := policy
  latest := .new limits
  archive := .new limits

def lane (s : BatchingClient ι) : Lane → LiveBatcher (PendingCall ι)
  | .latest => s.latest
  | .archive => s.archive

def setLane (s : BatchingClient ι) (live : LiveBatcher (PendingCall ι)) :
    Lane → BatchingClient ι
  | .latest => { s with latest := live }
  | .archive => { s with archive := live }

def setJob (s : BatchingClient ι) (k : Nat) (job : BatchJob ι) : BatchingClient ι :=
  { s with jobs := s.jobs.set k job }

variable [DecidableEq ι]

def setCaller (s : BatchingClient ι) (id : ι) (caller : Caller) : BatchingClient ι :=
  { s with callers := fun j ↦ if j = id then some caller else s.callers j }

/-- Lets go of the producing halves of some calls. -/
def release (s : BatchingClient ι) (calls : List (PendingCall ι)) : BatchingClient ι :=
  { s with
    callers := fun j ↦
      if calls.any fun call ↦ call.caller = j then
        (s.callers j).map fun c ↦ { c with slot := c.slot.dropProducer }
      else s.callers j }

/-- Nobody waits for that call any more. -/
def isAbandoned (s : BatchingClient ι) (id : ι) : Bool :=
  match s.callers id with
  | some c => c.slot.isAbandoned
  | none => true

/-- What happens to a client at one moment. -/
inductive Event (ι : Type) where
  /-- Somebody makes a token, on its own or below another one. -/
  | derive (parent : Option Nat)
  | cancel (token : Nat)
  /-- A new caller puts a call into its lane. -/
  | call (id : ι) (msg : CallMsg) (block : BlockRef) (ctx : Context)
  /-- A caller looks whether its wait is over, and finds that its context has ended or not. -/
  | look (id : ι) (seen : Option Reason)
  /-- A caller stops waiting. -/
  | leave (id : ι)
  | lane (lane : Lane) (event : LiveBatcher.Event (PendingCall ι))
  /-- A job asks the next caller of its window. -/
  | check (job : Nat)
  /-- A job that has asked all callers of its window makes its batch. -/
  | assemble (job : Nat)
  | attempt (job : Nat)
  /-- An attempt ends. After a failure the policy says the wait before the next attempt, or none. -/
  | reply (job : Nat) (outcome : BatchOutcome) (next? : Nanos → Option (Nanos × Nanos))
  /-- A job gives the next result. -/
  | deliver (job : Nat)
  | finish (job : Nat)

/-- The event is the work of a task, and no decision of somebody outside. -/
def Event.isTask : Event ι → Bool
  | look _ _ => true
  | lane _ event => event.isTask
  | check _ => true
  | assemble _ => true
  | attempt _ => true
  | reply _ _ _ => true
  | deliver _ => true
  | finish _ => true
  | _ => false

/-- Puts a call into its lane. -/
def submit (now : Time) (s : BatchingClient ι) (id : ι) (msg : CallMsg) (block : BlockRef)
    (ctx : Context) : BatchingClient ι :=
  let lane := Lane.ofBlock block
  let call : PendingCall ι := ⟨id, msg, block, ctx⟩
  match (s.lane lane).batcher.submit call with
  | .error e =>
    s.setCaller id
      { msg, block, ctx
        accepted := false
        slot := { producerGone := true, waiterGone := true }
        returned := some (now, .error e) }
  | .ok result =>
    (s.setLane ((s.lane lane).accept now call result) lane).setCaller id { msg, block, ctx }

/-- The answer that a caller finds when it looks. -/
def answer? (now : Time) (s : BatchingClient ι) (id : ι) (seen : Option Reason) :
    Option (Caller × Outcome (List UInt8)) := do
  let c ← s.callers id
  if c.slot.waiterGone || !seen.all (c.ctx.endedBy s.tokens now) then none
  else
    let result ← c.slot.poll seen
    return (c, result)

/-- A lane does something; a window that leaves it becomes a job. -/
def stepLane (now : Time) (s : BatchingClient ι) (lane : Lane)
    (event : LiveBatcher.Event (PendingCall ι)) : Option (BatchingClient ι) := do
  let live ← (s.lane lane).step now event
  let s' := s.setLane live lane
  match event with
  | .submit _ => none
  | .handOver number =>
    let window ← live.batch? number
    return { s' with
      jobs := s.jobs ++ [{ lane, number, window, phase := .checking window }]
      metrics := s.metrics.record (.batchSize lane.name) window.length }
  | .free => return s'.release (s.lane lane).batcher.items
  | _ => return s'

/-- A job asks whether somebody still waits for the next call of its window. -/
def check (s : BatchingClient ι) (k : Nat) (job : BatchJob ι) (call : PendingCall ι)
    (rest : List (PendingCall ι)) : BatchingClient ι :=
  if s.isAbandoned call.caller then
    (s.setJob k { job with gone := job.gone ++ [call.caller], phase := .checking rest }).release
      [call]
  else s.setJob k { job with phase := .checking rest }

/-- A job makes its batch, which is sent at once. -/
def assemble (now : Time) (s : BatchingClient ι) (k : Nat) (job : BatchJob ι) :
    BatchingClient ι :=
  match CallBatch.ofWindow? s.client s.policy job.lane (job.gone.contains ·) job.window s.tokens
    with
  | none => s.setJob k { job with phase := .done none }
  | some (batch, tokens) =>
    { s.setJob k { job with phase := .ready batch now } with
      tokens
      detached := s.detached ++ [batch.ctx.token] }

/-- What follows after an attempt of a job. -/
def conclude (now : Time) (s : BatchingClient ι) (k : Nat) (job : BatchJob ι)
    (batch : CallBatch ι) (outcome : BatchOutcome) : CallBatch.Next ι → BatchingClient ι
  | .answered answers => s.setJob k { job with phase := .delivering batch outcome answers }
  | .failed _ answers =>
    { s.setJob k { job with phase := .delivering batch outcome answers } with
      metrics := s.metrics.count (.batchFailures batch.lane.name) }
  | .again e wait later =>
    { s.setJob k { job with
        failures := job.failures ++ [e]
        phase := .ready later (now + wait.ticks) } with
      metrics := s.metrics.count (.batchRetries batch.lane.name) }

/-- A result is given to a caller. -/
def give (s : BatchingClient ι) (id : ι) (result : Outcome (List UInt8)) : BatchingClient ι :=
  match s.callers id with
  | none => s
  | some c =>
    let (first, slot) := c.slot.resolve result
    { s.setCaller id { c with slot } with given := s.given ++ [(id, result, first)] }

/-- The next act of a job. -/
def stepJob (now : Time) (s : BatchingClient ι) (k : Nat) (job : BatchJob ι) :
    Event ι → Option (BatchingClient ι)
  | .check _ =>
    match job.phase with
    | .checking (call :: rest) => some (s.check k job call rest)
    | _ => none
  | .assemble _ =>
    match job.phase with
    | .checking [] => some (s.assemble now k job)
    | _ => none
  | .attempt _ =>
    match job.phase with
    | .ready batch due =>
      if due ≤ now then some (s.setJob k { job with phase := .sent batch }) else none
    | _ => none
  | .reply _ outcome next? =>
    match job.phase with
    | .sent batch =>
      some (s.conclude now k job batch outcome
        (batch.afterAttempt s.policy.maxRetries next? outcome))
    | _ => none
  | .deliver _ =>
    match job.phase with
    | .delivering batch outcome ((id, result) :: left) =>
      some ((s.setJob k { job with phase := .delivering batch outcome left }).give id result)
    | _ => none
  | .finish _ =>
    match job.phase with
    | .delivering batch outcome [] =>
      some ((s.setJob k { job with phase := .done (some (batch, outcome)) }).release batch.calls)
    | _ => none
  | _ => none

/-- The job that an event is an act of. -/
def Event.job? : Event ι → Option Nat
  | check k => some k
  | assemble k => some k
  | attempt k => some k
  | reply k _ _ => some k
  | deliver k => some k
  | finish k => some k
  | _ => none

/-- The state after an event, if the event can happen. -/
def step (now : Time) (s : BatchingClient ι) (event : Event ι) : Option (BatchingClient ι) :=
  match event with
  | .derive none => some { s with tokens := s.tokens.root.2 }
  | .derive (some parent) =>
    if parent ∈ s.detached then none else some { s with tokens := (s.tokens.child parent).2 }
  | .cancel token =>
    if token ∈ s.detached then none else some { s with tokens := s.tokens.cancel token }
  | .call id msg block ctx =>
    if (s.callers id).isNone ∧ ctx.token < s.tokens.nodes.length ∧ ctx.token ∉ s.detached then
      some (s.submit now id msg block ctx)
    else none
  | .look id seen =>
    (s.answer? now id seen).map fun (c, result) ↦
      s.setCaller id { c with slot := c.slot.dropWaiter, returned := some (now, result) }
  | .leave id => do
    let c ← s.callers id
    if c.slot.waiterGone then none else return s.setCaller id { c with slot := c.slot.dropWaiter }
  | .lane lane event => s.stepLane now lane event
  | event => do
    let k ← event.job?
    let job ← s.jobs[k]?
    s.stepJob now k job event

/-- The clock moves, or an event happens. -/
inductive Move : Time × BatchingClient ι → Time × BatchingClient ι → Prop where
  | wait {now later : Time} {s : BatchingClient ι} (h : now ≤ later) : Move (now, s) (later, s)
  | event {now : Time} {s s' : BatchingClient ι} (e : Event ι) (h : s.step now e = some s') :
    Move (now, s) (now, s')

end BatchingClient

end Outbound.Eth
