import Outbound.Eth.BatchingClient
import Outbound.Eth.Rpc
import Outbound.Rehearsal.EthClient
import Outbound.Rehearsal.Offline
import Outbound.Rehearsal.Record
import Outbound.Rehearsal.Retries

/-!
# Batched calls on a virtual clock

A rehearsal of a batching client over transports that give scripted replies: calls are made,
canceled and abandoned while batches are on their way.
-/

namespace Outbound.Rehearsal

open Eth

/-- A call that has not ended. -/
structure OpenCall where
  id : String
  number : Nat
  ctx : Context

inductive CallEvent where
  /-- The caller gets to run. -/
  | begin (number : Nat) (msg : CallMsg) (block : BlockRef) (direct : Bool)
  /-- The caller looks whether its wait is over. -/
  | look (number : Nat)
  | arm (lane : Lane) (generation : Nat)
  | expire (lane : Lane) (generation : Nat)
  | start (job : Nat)
  | attempt (job : Nat)
  | reply (job : Nat) (outcome : BatchOutcome)

/-- How batches reach a node. -/
inductive Wire where
  /-- The node gives the replies of a script, and then every call its own data. -/
  | scripted (replies : List Json)
  /-- Requests have a time limit, and no node can be reached. -/
  | offline (limit : Nat)

structure CallStage where
  client : BatchingClient Nat
  /-- The calls that have not ended, oldest first. -/
  calls : List OpenCall := []
  /-- How many calls were made. -/
  made : Nat := 0
  wire : Wire := .scripted []
  /-- What was sent since the last report, latest first. -/
  sent : List Json := []
  /-- The calls that ended since the last report, latest first. -/
  done : List Json := []
  logs : List LogEvent := []

namespace CallStage

def named? (stage : CallStage) (id : String) : Option OpenCall :=
  stage.calls.find? (·.id == id)

def numbered? (stage : CallStage) (number : Nat) : Option OpenCall :=
  stage.calls.find? (·.number == number)

def forget (stage : CallStage) (number : Nat) : CallStage :=
  { stage with calls := stage.calls.filter (·.number != number) }

def setMetrics (stage : CallStage) (metrics : Metrics) : CallStage :=
  { stage with client := { stage.client with metrics } }

/-- Has something happen to the client, if it can. -/
def act (event : BatchingClient.Event Nat) (now : Time) (stage : CallStage) : CallStage :=
  { stage with client := (stage.client.step now event).getD stage.client }

private def isTimer (lane : Lane) (generation : Nat) : CallEvent → Bool
  | .arm l g => l == lane && g == generation
  | .expire l g => l == lane && g == generation
  | _ => false

/-- Puts down the tasks that a step of a lane spawned. A closed window becomes a job at once, which
begins its work when the tasks before it have run. -/
def schedule (lane : Lane) (agenda : Agenda CallEvent) (stage : CallStage) :
    List (BatchEffect (PendingCall Nat)) → Agenda CallEvent × CallStage
  | [] => (agenda, stage)
  | .arm generation :: rest => schedule lane (agenda.soon (.arm lane generation)) stage rest
  | .disarm generation :: rest =>
    schedule lane (agenda.discard (isTimer lane generation)) stage rest
  | .dispatch _ :: rest =>
    let (agenda, stage) := (stage.client.lane lane).leaving.foldl (fun (agenda, stage) n ↦
      (agenda.soon (.start stage.client.jobs.length),
        stage.act (.lane lane (.handOver n)) agenda.now)) (agenda, stage)
    schedule lane agenda stage rest

def finish (call : OpenCall) (now : Time) (result : Outcome (List UInt8)) (stage : CallStage) :
    CallStage :=
  let stage := stage.forget call.number
  { stage with
    done := .ofMembers [("id", .str call.id), ("t", .ofNat now),
      ("result", outcomeReport bytesReport result)] :: stage.done }

/-- Ends a wait that has an answer. -/
def look (number : Nat) (now : Time) (stage : CallStage) : CallStage :=
  match stage.numbered? number with
  | none => stage
  | some call =>
    let seen := call.ctx.err stage.client.tokens now
    match stage.client.answer? now number seen with
    | none => stage
    | some (_, result) => (stage.act (.look number seen) now).finish call now result

/-- Looks now, and again when the deadline comes. -/
private def await (call : OpenCall) (agenda : Agenda CallEvent) (stage : CallStage) :
    Agenda CallEvent × CallStage :=
  let later :=
    match call.ctx.deadline with
    | some d => if agenda.now < d then agenda.after (d - agenda.now) (.look call.number) else agenda
    | none => agenda
  (later, stage.look call.number agenda.now)

/-- A call that is not batched. The transport has null for it. -/
private def direct (call : OpenCall) (msg : CallMsg) (block : BlockRef) (now : Time)
    (stage : CallStage) : CallStage :=
  let role := stage.client.client.endpoint block
  let request := (Query.callContract msg block).call
  let stage := { stage with sent := sentReport request role call.ctx.requestId :: stage.sent }
  stage.finish call now (decodeBytes .null)

private def begin (number : Nat) (msg : CallMsg) (block : BlockRef) (agenda : Agenda CallEvent)
    (stage : CallStage) : Agenda CallEvent × CallStage :=
  match stage.numbered? number with
  | none => (agenda, stage)
  | some call =>
    let lane := Lane.ofBlock block
    let answer := (stage.client.lane lane).batcher.submit ⟨number, msg, block, call.ctx⟩
    let stage := stage.act (.call number msg block call.ctx) agenda.now
    match answer with
    | .error e => (agenda, stage.finish call agenda.now (.error e))
    | .ok (_, effects) =>
      let (agenda, stage) := schedule lane agenda stage effects
      await call agenda stage

/-- Gives all callers of a batch their results. -/
private def deliver (job : Nat) (agenda : Agenda CallEvent) (stage : CallStage) :
    List (PendingCall Nat) → Agenda CallEvent × CallStage
  | [] => (agenda, stage.act (.finish job) agenda.now)
  | call :: rest =>
    let stage := stage.act (.deliver job) agenda.now
    let agenda :=
      if (stage.numbered? call.caller).isSome then agenda.soon (.look call.caller) else agenda
    deliver job agenda stage rest

/-- The end of an attempt. -/
private def reply (job : Nat) (outcome : BatchOutcome) (agenda : Agenda CallEvent)
    (stage : CallStage) : Agenda CallEvent × CallStage :=
  match (stage.client.jobs[job]?).map BatchJob.phase with
  | some (.sent batch) =>
    let policy := stage.client.policy
    let stage := stage.act (.reply job outcome (nextWait? policy)) agenda.now
    match batch.afterAttempt policy.maxRetries (nextWait? policy) outcome with
    | .answered _ => deliver job agenda stage batch.calls
    | .failed e _ =>
      deliver job agenda { stage with logs := .batchFailed batch e :: stage.logs } batch.calls
    | .again e wait _ =>
      (agenda.after wait.ticks (.attempt job),
        { stage with logs := .batchRetried batch e wait :: stage.logs })
  | _ => (agenda, stage)

private def callPair (call : Call) : Json :=
  .arr [.str call.method, call.params]

private def batchReport (batch : CallBatch Nat) (tokens : Tokens) (now : Time) : Json :=
  .ofMembers [("t", .ofNat now), ("role", .str (roleName batch.endpoint)),
    ("request_id", .ofOption .str batch.ctx.requestId),
    ("ctx", .ofMembers [
      ("err", .ofOption (fun r ↦ .str (reasonName r)) (batch.ctx.err tokens now)),
      ("deadline", .bool batch.ctx.deadline.isSome)]),
    ("calls", .ofList callPair batch.requests)]

private def echo (call : PendingCall Nat) : Outcome Json :=
  .ok (.str (Hex.data call.msg.data))

/-- What the transport replies to a batch. -/
private def scripted (v : Json) (batch : CallBatch Nat) : BatchOutcome :=
  match error? (v.member "fail"), (v.member "values").arr? with
  | some e, _ => .error e
  | none, some values => .ok (values.map replyOf)
  | none, none => .ok (batch.calls.map echo)

private def attempt (job : Nat) (agenda : Agenda CallEvent) (stage : CallStage) :
    Agenda CallEvent × CallStage :=
  match (stage.client.jobs[job]?).map BatchJob.phase with
  | some (.ready batch _) =>
    let stage := stage.act (.attempt job) agenda.now
    match stage.wire with
    | .scripted replies =>
      let next := (replies.head?).getD .null
      let stage := { stage with
        sent := batchReport batch stage.client.tokens agenda.now :: stage.sent
        wire := .scripted replies.tail }
      let outcome := scripted next batch
      match next.nat? "delay" with
      | some ms => (agenda.after ms (.reply job outcome), stage)
      | none => reply job outcome agenda stage
    | .offline limit =>
      let exchange := offlineExchange limit
      let decodes := (Rpc.decoded Rpc.readBatchReply? exchange).toBool
      reply job (Rpc.readBatch 1 batch.calls.length exchange) agenda
        (stage.setMetrics (stage.client.metrics.countRpc "batch" decodes))
  | _ => (agenda, stage)

private def start (job : Nat) (agenda : Agenda CallEvent) (stage : CallStage) :
    Agenda CallEvent × CallStage :=
  match stage.client.jobs[job]? with
  | none => (agenda, stage)
  | some window =>
    let stage := window.window.foldl (fun stage _ ↦ stage.act (.check job) agenda.now) stage
    attempt job agenda (stage.act (.assemble job) agenda.now)

def handle (event : CallEvent) (agenda : Agenda CallEvent) (stage : CallStage) :
    Agenda CallEvent × CallStage :=
  match event with
  | .begin number msg block false => begin number msg block agenda stage
  | .begin number msg block true =>
    (agenda, match stage.numbered? number with
      | none => stage
      | some call => direct call msg block agenda.now stage)
  | .look number => (agenda, stage.look number agenda.now)
  | .arm lane generation =>
    (agenda.after (stage.client.lane lane).batcher.limits.maxWait (.expire lane generation),
      stage.act (.lane lane (.sleep generation)) agenda.now)
  | .expire lane generation =>
    let (_, effects) := (stage.client.lane lane).batcher.expire generation
    let stage := stage.act (.lane lane (.wake generation agenda.now)) agenda.now
    schedule lane agenda (stage.act (.lane lane (.expire generation)) agenda.now) effects
  | .start job => start job agenda stage
  | .attempt job => attempt job agenda stage
  | .reply job outcome => reply job outcome agenda stage

private def newContext (step : Json) (now : Time) (tokens : Tokens) : Context × Tokens :=
  let (ctx, tokens) := Context.background tokens
  let ctx :=
    match step.text? "request_id" with
    | some id => ctx.withRequestId id
    | none => ctx
  let (ctx, tokens) :=
    match step.nat? "timeout" with
    | some ms => ctx.withTimeout now ms tokens
    | none => (ctx, tokens)
  (ctx, if step.flag "canceled" then ctx.cancel tokens else tokens)

private def closeLane (lane : Lane) (agenda : Agenda CallEvent) (stage : CallStage) :
    Agenda CallEvent × CallStage :=
  let batcher := (stage.client.lane lane).batcher
  let logs := (LogEvent.batcherClosed? lane.name batcher).toList ++ stage.logs
  let (_, effects) := batcher.close
  schedule lane agenda { stage.act (.lane lane .close) agenda.now with logs } effects

def close (agenda : Agenda CallEvent) (stage : CallStage) : Agenda CallEvent × CallStage :=
  let (agenda, stage) := closeLane .latest agenda stage
  closeLane .archive agenda stage

/-- A new caller. -/
def makeCall (id : String) (script : Json) (agenda : Agenda CallEvent) (stage : CallStage) :
    Agenda CallEvent × CallStage :=
  let (ctx, tokens) := newContext script agenda.now stage.client.tokens
  (agenda.soon (.begin stage.made (callMsg (script.member "msg"))
      (blockRef (script.member "block")) (script.flag "direct")),
    { stage with
      client := { stage.client with tokens }
      calls := stage.calls ++ [⟨id, stage.made, ctx⟩]
      made := stage.made + 1 })

def step (script : Json) (agenda : Agenda CallEvent) (stage : CallStage) :
    Agenda CallEvent × CallStage :=
  let id := script.text "id"
  match script.text "do" with
  | "call" => makeCall id script agenda stage
  | "cancel" =>
    match stage.named? id with
    | none => (agenda, stage)
    | some call =>
      (agenda.soon (.look call.number), stage.act (.cancel call.ctx.token) agenda.now)
  | "abort" =>
    match stage.named? id with
    | none => (agenda, stage)
    | some call => (agenda, (stage.act (.leave call.number) agenda.now).forget call.number)
  | "close" => close agenda stage
  | "sleep" => agenda.wait handle (script.nat "ms") stage
  | _ => (agenda, stage)

def run : List Json → Agenda CallEvent → CallStage → List Json × CallStage
  | [], _, stage => ([], stage)
  | script :: rest, agenda, stage =>
    let (agenda, stage) := step script agenda stage
    let (agenda, stage) :=
      if script.flagUnlessFalse "settle" then agenda.settle handle stage else (agenda, stage)
    let report : Json := .ofMembers [("t", .ofNat agenda.now),
      ("sent", .arr stage.sent.reverse), ("done", .arr stage.done.reverse)]
    let (reports, last) := run rest agenda { stage with sent := [], done := [] }
    (report :: reports, last)

end CallStage

def calls (script : Json) : Record :=
  let settings : Shaped (BatchLimits × BackoffSettings) := do
    return (← BatchLimits.read Json.format (script.member "config"),
      ← BackoffSettings.read Json.format (script.member "backoff"))
  match settings with
  | .error e => { report := errorReport (.decode e.message) }
  | .ok (limits, backoff) =>
    if !limits.normalized.reservable waitingCallBytes then { report := panicReport }
    else
      let (reports, last) := CallStage.run (script.list "steps") {}
        { client := .new ⟨script.flag "single"⟩ backoff.policy limits
          wire := .scripted (script.list "script") }
      { report := .ofMembers [("steps", .arr reports)]
        metrics := some last.client.metrics
        logs := last.logs.reverse }

end Outbound.Rehearsal
