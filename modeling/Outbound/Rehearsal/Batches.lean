import Outbound.Batch.Live
import Outbound.Rehearsal.Record

/-!
# Batchers on a virtual clock

A rehearsal of one batcher and its handles: items are submitted now or later, handles are cloned
and dropped, and the report shows when which batches were processed.
-/

namespace Outbound.Rehearsal

def limitsReport (limits : BatchLimits) : Json :=
  .ofMembers [("max_wait_ms", .ofNat limits.maxWait), ("max_count", .ofNat limits.maxCount)]

/-- The name of the batcher. -/
def batcherName : String := "oracle"

inductive BatchEvent where
  /-- The timer of a window starts to run. -/
  | arm (generation : Nat)
  /-- The timer of a window is due. -/
  | expire (generation : Nat)
  | start (batch : List Json)
  | finish (batch : List Json)
  /-- An item is submitted through a handle of its own. -/
  | submit (item : Json)

structure BatchStage where
  live : LiveBatcher Json
  /-- How long a batch is processed. -/
  duration : Nat
  /-- Names of the handles; the first handle has an empty name. -/
  handles : List String := [""]
  metrics : Metrics := []
  logs : List LogEvent := []
  /-- What happened since the last report, latest first. -/
  notes : List Json := []

namespace BatchStage

private def isTimer (generation : Nat) : BatchEvent → Bool
  | .arm g => g == generation
  | .expire g => g == generation
  | _ => false

/-- Has something happen to the batcher, if it can. -/
def act (event : LiveBatcher.Event Json) (now : Time) (stage : BatchStage) : BatchStage :=
  { stage with live := (stage.live.step now event).getD stage.live }

/-- Puts down the tasks that a step of the batcher spawned. The callback gets a batch at once, and
its work begins when the tasks before it have run. -/
def schedule (agenda : Agenda BatchEvent) (stage : BatchStage) :
    List (BatchEffect Json) → Agenda BatchEvent × BatchStage
  | [] => (agenda, stage)
  | .arm generation :: rest => schedule (agenda.soon (.arm generation)) stage rest
  | .disarm generation :: rest => schedule (agenda.discard (isTimer generation)) stage rest
  | .dispatch batch :: rest =>
    let stage := stage.live.leaving.foldl (fun stage n ↦ stage.act (.handOver n) agenda.now) stage
    schedule (agenda.soon (.start batch))
      { stage with metrics := stage.metrics.record (.batchSize batcherName) batch.length } rest

/-- Submits an item; the error is returned beside the stage. -/
def submit (item : Json) (agenda : Agenda BatchEvent) (stage : BatchStage) :
    Option Error × Agenda BatchEvent × BatchStage :=
  match stage.live.batcher.submit item with
  | .error e => (some e, agenda, stage)
  | .ok (_, effects) => (none, schedule agenda (stage.act (.submit item) agenda.now) effects)

private def note (stage : BatchStage) (now : Time) (members : List (String × Json)) : BatchStage :=
  { stage with notes := .ofMembers (("t", .ofNat now) :: members) :: stage.notes }

def handle (event : BatchEvent) (agenda : Agenda BatchEvent) (stage : BatchStage) :
    Agenda BatchEvent × BatchStage :=
  match event with
  | .arm generation =>
    (agenda.after stage.live.batcher.limits.maxWait (.expire generation),
      stage.act (.sleep generation) agenda.now)
  | .expire generation =>
    let (_, effects) := stage.live.batcher.expire generation
    let stage := stage.act (.wake generation agenda.now) agenda.now
    schedule agenda (stage.act (.expire generation) agenda.now) effects
  | .start batch =>
    let stage := stage.note agenda.now [("items", .arr batch)]
    if stage.duration = 0 then (agenda, stage)
    else (agenda.after stage.duration (.finish batch), stage)
  | .finish batch => (agenda, stage.note agenda.now [("processed", .arr batch)])
  | .submit item =>
    match stage.submit item agenda with
    | (none, agenda, stage) => (agenda, stage.act .drop agenda.now)
    | (some e, agenda, stage) =>
      (agenda, (stage.act .drop agenda.now).note agenda.now
        [("rejected", item), ("error", .str (kindOf e))])

/-- Submits `count` numbers from `from` on and counts the outcomes. -/
def burst : Nat → Nat → List (String × Nat) → Agenda BatchEvent → BatchStage →
    List (String × Nat) × Agenda BatchEvent × BatchStage
  | 0, _, counts, agenda, stage => (counts, agenda, stage)
  | n + 1, item, counts, agenda, stage =>
    let (error, agenda, stage) := stage.submit (.int item) agenda
    let outcome := match error with
      | none => "ok"
      | some e => kindOf e
    let counts := (outcome, (counts.lookup outcome).getD 0 + 1) ::
      counts.filter (·.1 != outcome)
    burst n (item + 1) counts agenda stage

/-- Waits; an unsettled wait stops before what is due at its end. -/
private def sleep (script : Json) (agenda : Agenda BatchEvent) (stage : BatchStage) :
    Agenda BatchEvent × BatchStage :=
  let ms := script.nat "ms"
  if script.flagUnlessFalse "settle" || ms = 0 then agenda.wait handle ms stage
  else
    let (agenda, stage) := agenda.wait handle (ms - 1) stage
    ({ agenda with now := agenda.now + 1 }, stage)

private def onHandle (script : Json) (name : String) (agenda : Agenda BatchEvent)
    (stage : BatchStage) : Json × Agenda BatchEvent × BatchStage :=
  match script.text "do" with
  | "submit" =>
    let (error, agenda, stage) := stage.submit (script.member "item") agenda
    (.str (match error with
      | none => "ok"
      | some e => kindOf e), agenda, stage)
  | "burst" =>
    let (counts, agenda, stage) := burst (script.nat "n") (script.nat "from") [] agenda stage
    (.ofMembers (counts.map fun (k, n) ↦ (k, .ofNat n)), agenda, stage)
  | "submit_later" =>
    (.null, agenda.after (script.nat "ms") (.submit (script.member "item")),
      stage.act .clone agenda.now)
  | "clone" =>
    (.null, agenda,
      { stage.act .clone agenda.now with handles := script.text "as" :: stage.handles })
  | "drop" =>
    (.null, agenda,
      { stage.act .drop agenda.now with handles := stage.handles.filter (· != name) })
  | "close" =>
    let logs := (LogEvent.batcherClosed? batcherName stage.live.batcher).toList ++ stage.logs
    let (_, effects) := stage.live.batcher.close
    (.null, schedule agenda { stage.act .close agenda.now with logs } effects)
  | "is_closed" => (.bool stage.live.batcher.closed, agenda, stage)
  | _ => (badInput, agenda, stage)

def step (script : Json) (agenda : Agenda BatchEvent) (stage : BatchStage) :
    Json × Agenda BatchEvent × BatchStage :=
  if script.text "do" = "sleep" then (.null, sleep script agenda stage)
  else
    let name := script.text "via"
    if stage.handles.contains name then onHandle script name agenda stage
    else (.str "dropped", agenda, stage)

def run : List Json → Agenda BatchEvent → BatchStage → List Json × BatchStage
  | [], _, stage => ([], stage)
  | script :: rest, agenda, stage =>
    let (ret, agenda, stage) := step script agenda stage
    let (agenda, stage) :=
      if script.flagUnlessFalse "settle" then agenda.settle handle stage else (agenda, stage)
    let report : Json :=
      .ofMembers [("t", .ofNat agenda.now), ("ret", ret), ("log", .arr stage.notes.reverse)]
    let (reports, last) := run rest agenda { stage with notes := [] }
    (report :: reports, last)

end BatchStage

/-- Bytes that one item of a script takes. -/
def scriptItemBytes : Nat := 32

def batches (script : Json) : Record :=
  match BatchLimits.read Json.format (script.member "config") with
  | .error e => { report := errorReport (.decode e.message) }
  | .ok parsed =>
    if !parsed.normalized.reservable scriptItemBytes then { report := panicReport }
    else
      let live := LiveBatcher.new parsed
      let (reports, last) :=
        BatchStage.run (script.list "steps") {} { live, duration := script.nat "process_ms" }
      { report := .ofMembers [("parsed", limitsReport parsed),
          ("built", limitsReport parsed.normalized), ("live", limitsReport live.batcher.limits),
          ("default", .bool (parsed == .default)), ("steps", .arr reports)]
        metrics := some last.metrics
        logs := last.logs.reverse }

end Outbound.Rehearsal
