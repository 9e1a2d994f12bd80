import Outbound.Batch.Greedy
import Outbound.Eth.BatchingClient

/-!
# A batching client on a virtual clock

The clock stands still while a task can run. What is done from outside is written down with its
times, and all else is left to the surroundings: how long attempts take and what they come to,
how long the waits between them are, and in what order two things happen that happen at once.
-/

namespace Outbound.Eth

/-! ## What is done from outside -/

/-- What somebody outside does with a client. Tokens are counted here in the order in which they
were made outside, also in the context of a call. -/
inductive Deed (ι : Type) where
  | derive (parent : Option Nat)
  | cancel (token : Nat)
  | call (call : PendingCall ι)
  | leave (id : ι)
  | clone (lane : Lane)
  | drop (lane : Lane)
  | close (lane : Lane)

/-- All that was done from outside, and when. -/
abbrev Script (ι : Type) := List (Time × Deed ι)

/-- A token is at or below another one, given below which token each was made. -/
inductive Below (parents : List (Option Nat)) (above : Nat) : Nat → Prop where
  | self : Below parents above above
  | child {token parent : Nat} (hparent : parents[token]? = some (some parent))
    (h : Below parents above parent) : Below parents above token

namespace Deed

variable {ι : Type}

/-- The token that is made, by the token below which it is made, if there is one. -/
def parent? : Deed ι → Option (Option Nat)
  | derive parent => some parent
  | _ => none

/-- The deed as the event that it is, where tokens have other numbers. -/
def event? (outer : List Nat) : Deed ι → Option (BatchingClient.Event ι)
  | derive none => some (.derive none)
  | derive (some parent) => outer[parent]?.map fun token ↦ .derive (some token)
  | cancel token => outer[token]?.map .cancel
  | call c =>
    outer[c.ctx.token]?.map fun token ↦ .call c.caller c.msg c.block { c.ctx with token }
  | leave id => some (.leave id)
  | clone l => some (.lane l .clone)
  | drop l => some (.lane l .drop)
  | close l => some (.lane l .close)

/-- The deed without anything by which a caller leaves or could leave: its context, that it stops
waiting, and the canceling of tokens of its own. -/
def without [DecidableEq ι] (id : ι) (own : List Nat) : Deed ι → Option (Deed ι)
  | cancel token => if token ∈ own then none else some (cancel token)
  | call c => some (call (if c.caller = id then { c with ctx := ⟨0, none, none⟩ } else c))
  | leave id' => if id' = id then none else some (leave id')
  | d => some d

end Deed

namespace Script

variable {ι : Type}

/-- Below which token each token was made. -/
def parents (script : Script ι) : List (Option Nat) :=
  script.filterMap fun x ↦ x.2.parent?

def without [DecidableEq ι] (id : ι) (own : List Nat) (script : Script ι) : Script ι :=
  script.filterMap fun x ↦ (x.2.without id own).map (x.1, ·)

end Script

/-! ## Windows as they follow from it -/

/-- The windows of a lane, as far as they follow from what was done from outside. -/
structure LaneLog (ι : Type) where
  ended : List (ClosedWindow ι) := []
  /-- The last window, which may be past its end. -/
  last? : Option (OpenWindow ι) := none
  shut : Bool := false
  /-- Those whose calls came too late. -/
  refused : List ι := []

namespace LaneLog

variable {ι : Type}

def arrive (limits : BatchLimits) (log : LaneLog ι) (x : Arrival ι) : LaneLog ι :=
  if log.shut then { log with refused := log.refused ++ [x.item] }
  else
    { log with
      ended := log.ended ++ (OpenWindow.arrive limits log.last? x).1
      last? := (OpenWindow.arrive limits log.last? x).2 }

/-- Shuts the lane. Its window ends, unless it has ended before. -/
def close (limits : BatchLimits) (now : Time) (log : LaneLog ι) : LaneLog ι :=
  { log with
    ended := log.ended ++ (log.last?.map fun v ↦ (min now (v.deadline limits), v.items)).toList
    last? := none
    shut := true }

end LaneLog

/-! ## What a client does not decide -/

/-- What a client finds. An attempt is known by its lane, the number of its window and its own
number. -/
structure Surroundings (ι : Type) where
  delay : Lane → Nat → Nat → Time
  failure? : Lane → Nat → Nat → Option Error
  /-- What a call comes to, in whatever batch it is sent. -/
  element : Call → Outcome Json
  /-- The wait after an attempt, and the next interval, from the present one. -/
  next? : Lane → Nat → Nat → Nanos → Option (Nanos × Nanos)
  /-- Somebody who calls at the time when the window of the lane is due comes before its end. -/
  joins : ι → Bool
  /-- What somebody returns for whom there is more than one result at that time. -/
  tie : ι → Time → Outcome (List UInt8)

namespace Surroundings

variable {ι : Type} (env : Surroundings ι)

/-- What an attempt comes to that has that error, or none. -/
def outcome (failure? : Option Error) (requests : List Call) : BatchOutcome :=
  match failure? with
  | some e => .error e
  | none => .ok (requests.map env.element)

def answer (failure? : Option Error) (request : Call) : Outcome (List UInt8) :=
  match failure? with
  | some e => .error e
  | none => (env.element request).bind decodeBytes

section Attempts

variable (policy : BackoffPolicy) (lane : Lane) (number : Nat)

/-- The attempts at the batch of a window, from index zero on, and how long after the end of the
window each is made. -/
def attempt? : Nat → Option (Attempts Nanos × Time)
  | 0 => some (policy.start, 0)
  | i + 1 => do
    let (run, made) ← attempt? i
    if (env.failure? lane number run.begun).isNone then none
    else
      let (wait, later) ← run.afterFailure? policy.maxRetries (env.next? lane number run.begun)
      return (later, made + env.delay lane number run.begun + wait.ticks)

/-- The last attempt ends that long after the end of the window, with that error or none. -/
def Ends (time : Time) (failure? : Option Error) : Prop :=
  ∃ i run made, env.attempt? policy lane number i = some (run, made) ∧
    time = made + env.delay lane number run.begun ∧
    failure? = env.failure? lane number run.begun ∧
    (failure?.isSome →
      run.afterFailure? policy.maxRetries (env.next? lane number run.begun) = none)

end Attempts

/-- The windows of a lane after a deed. -/
def record (limits : BatchLimits) (lane : Lane) (log : LaneLog ι) : Time × Deed ι → LaneLog ι
  | (now, .call call) =>
    if Lane.ofBlock call.block = lane then
      log.arrive limits ⟨now, call.caller, env.joins call.caller⟩
    else log
  | (now, .close l) => if l = lane then log.close limits now else log
  | _ => log

end Surroundings

/-! ## Runs -/

/-- The event is no deed of somebody outside. -/
def BatchingClient.Event.isInner {ι : Type} : BatchingClient.Event ι → Bool
  | lane _ .free => true
  | e => e.isTask

structure Watched (ι : Type) where
  now : Time
  client : BatchingClient ι
  /-- The numbers that the tokens made outside have among all tokens. -/
  outer : List Nat := []
  /-- When the latest attempt of each job was made. -/
  sent : Nat → Time := fun _ ↦ 0
  script : Script ι := []

namespace Watched

variable {ι : Type}

def new (client : Client) (policy : BackoffPolicy) (limits : BatchLimits) (now : Time) :
    Watched ι where
  now := now
  client := .new client policy limits

variable (env : Surroundings ι) (w : Watched ι)

def log (l : Lane) : LaneLog ι :=
  w.script.foldl (env.record (w.client.lane l).batcher.limits l) {}

/-- When the latest attempt of a job ends. -/
def replyTime (k : Nat) (job : BatchJob ι) (batch : CallBatch ι) : Time :=
  w.sent k + env.delay job.lane job.number batch.attempts.begun

/-- A job has nothing to do before that time. -/
def JobIdle (later : Time) (k : Nat) (job : BatchJob ι) : Prop :=
  match job.phase with
  | .ready _ due => later ≤ due
  | .sent batch => later ≤ w.replyTime env k job batch
  | .done _ => True
  | _ => False

/-- No task has anything to do before that time. -/
structure IdleUntil [DecidableEq ι] (later : Time) : Prop where
  lanes : ∀ l, (w.client.lane l).IdleUntil later
  jobs : ∀ k job, w.client.jobs[k]? = some job → w.JobIdle env later k job
  callers : ∀ id seen t, w.now ≤ t → t < later → w.client.answer? t id seen = none

/-- The event can happen now in these surroundings. -/
def Allows : BatchingClient.Event ι → Prop
  | .call id _ block _ =>
    ∀ v, (w.log env (.ofBlock block)).last? = some v →
      v.deadline (w.client.lane (.ofBlock block)).batcher.limits = w.now →
      (env.joins id = true ↔ (w.client.lane (.ofBlock block)).batcher.items ≠ [])
  | .reply k outcome next? =>
    ∀ job batch, w.client.jobs[k]? = some job → job.phase = .sent batch →
      w.now = w.replyTime env k job batch ∧
      outcome = env.outcome (env.failure? job.lane job.number batch.attempts.begun)
        batch.requests ∧
      next? = env.next? job.lane job.number batch.attempts.begun
  | _ => True

def afterDeed (d : Deed ι) (client : BatchingClient ι) : Watched ι :=
  { w with
    client
    outer := w.outer ++ d.parent?.toList.map fun _ ↦ w.client.tokens.nodes.length
    script := w.script ++ [(w.now, d)] }

def afterTask (e : BatchingClient.Event ι) (client : BatchingClient ι) : Watched ι :=
  { w with
    client
    sent :=
      match e with
      | .attempt k => fun j ↦ if j = k then w.now else w.sent j
      | _ => w.sent }

/-- The clock moves while no task can run, or something is done from outside, or a task runs. -/
inductive Move [DecidableEq ι] (env : Surroundings ι) : Watched ι → Watched ι → Prop where
  | wait {w : Watched ι} {later : Time} (hle : w.now ≤ later) (idle : w.IdleUntil env later) :
    Move env w { w with now := later }
  | deed {w : Watched ι} {client : BatchingClient ι} {e : BatchingClient.Event ι} (d : Deed ι)
    (he : d.event? w.outer = some e) (allowed : w.Allows env e)
    (hs : w.client.step w.now e = some client) : Move env w (w.afterDeed d client)
  | task {w : Watched ι} {client : BatchingClient ι} (e : BatchingClient.Event ι)
    (inner : e.isInner = true) (allowed : w.Allows env e)
    (hs : w.client.step w.now e = some client) : Move env w (w.afterTask e client)

/-- At that time there is that result for whoever has made the call. -/
inductive Available (call : PendingCall ι) (t : Time) : Outcome (List UInt8) → Prop where
  | answer {l : Lane} {number : Nat} {ended time : Time} {window : List (PendingCall ι)}
    {failure? : Option Error} (hwindow : (w.client.lane l).windows[number]? = some (ended, window))
    (hmem : call.caller ∈ window.map (·.caller))
    (hends : env.Ends w.client.policy l number time failure?) (hle : ended + time ≤ t) :
    Available call t (env.answer failure? call.request)
  | canceled {time : Time} {token : Nat} (hcancel : (time, .cancel token) ∈ w.script)
    (hbelow : Below w.script.parents token call.ctx.token) (hle : time ≤ t) :
    Available call t (.error (.ended .canceled))
  | late {deadline : Time} (hdeadline : call.ctx.deadline = some deadline) (hle : deadline ≤ t) :
    Available call t (.error (.ended .deadlineExceeded))

/-- If there were different results for a caller when it returned, the surroundings have said
which of them it returns. -/
def SettlesTies (id : ι) : Prop :=
  ∀ called call c t r, (called, .call call) ∈ w.script → call.caller = id →
    w.client.callers id = some c → c.returned = some (t, r) →
    ∀ r₁ r₂, w.Available env call t r₁ → w.Available env call t r₂ → r₁ ≠ r₂ →
      r = env.tie id t

end Watched

end Outbound.Eth
