import Outbound.Refresh
import Outbound.Rehearsal.Calls
import Outbound.Rehearsal.Configs
import Outbound.Reload

/-!
# Reloads on a virtual clock

A rehearsal of a configuration that is loaded again and again while some of its values are kept.
-/

namespace Outbound.Rehearsal

open Eth

/-- What a replaced value leaves behind. -/
inductive Leftover where
  /-- A client that is let go of. -/
  | release (name : String)
  /-- A batching client that is closed. -/
  | close

/-- A value that was loaded. -/
structure Loaded where
  /-- The number of values loaded before it. -/
  number : Nat
  shown : Shown
  /-- What happens to its clients when it is replaced. -/
  leftovers : List Leftover := []
  /-- A client was built, and its life can be followed. -/
  followed : Bool := false
  /-- Its batching client. -/
  calls : Option CallStage := none

/-- Values come with what was built for them. -/
private def leaveBehind : Reloadable Loaded (Nat × Leftover) :=
  .building id fun old ↦ old.leftovers.map fun leftover ↦ (old.number, leftover)

/-- Reads a configuration and builds what belongs to it. None if memory for it cannot be asked
for. The events come with it that are logged before it is shown. -/
private def loadValue (kind : String) (around : Surroundings) (number : Nat) (cfg : Json) :
    Option (Shaped (Loaded × List LogEvent)) :=
  match kind with
  | "redis" => some do
    let s ← Redis.Settings.read Json.format cfg
    let (client, logs) := builtRedis s
    return ({ number, shown := redisReport s client, followed := client.isSome
              leftovers := if client.isSome then [.release "redis"] else [] }, logs)
  | "eth" => some do
    let s ← Settings.read Json.format cfg
    let (client, logs) := dialed s
    return ({ number, shown := ethReport s client, followed := client.isSome
              leftovers := if client.isSome then [.release "eth"] else [] }, logs)
  | "batchable" =>
    match BatchingSettings.read Json.format Json.format cfg with
    | .error e => some (.error e)
    | .ok s =>
      let (client, logs) := dialed s.eth
      if s.buildable waitingCallBytes client then
        some (.ok ({
          number, shown := batchingReport s s.backoff.policy client, followed := client.isSome
          leftovers := if client.isSome then [.release "eth", .close] else []
          calls := client.map fun endpoints ↦
            { client := s.client endpoints, wire := .offline s.eth.timeoutMs } }, logs))
      else none
  | "http" => some do
    let s ← HttpSettings.read Json.format cfg
    let (client, logs) := builtHttp s
    return ({ number, shown := httpReport s client }, logs)
  | "grpc" => some do
    let s ← Grpc.Settings.read Json.format cfg
    let (channel, logs) := builtChannel around s
    return ({ number, shown := grpcReport around s channel
              leftovers := if channel then [.release "grpc"] else [] }, logs)
  | _ => some do
    let s ← BackoffSettings.read Json.format cfg
    return ({ number, shown := { report := policyReport (loadedBackoff s).policy } }, [])

/-- A background task that is due. -/
structure Farewell where
  number : Nat
  leftover : Leftover

structure ReloadStage where
  kind : String
  around : Surroundings
  live : Option (LiveConfig Loaded) := none
  /-- Every value that was loaded, oldest first. -/
  loads : List Loaded := []
  /-- The values that are kept, by name. -/
  snapshots : List (String × Loaded) := []
  /-- Who holds the clients of a value: the configuration, snapshots and background tasks. -/
  owners : Owners Nat := {}
  /-- The batching clients with their clocks, by the number of their value. -/
  callers : List (Nat × Agenda CallEvent × CallStage) := []
  metrics : Metrics := []
  /-- Latest first. -/
  logs : List LogEvent := []

namespace ReloadStage

/-- Has the batching client of a value do something now. -/
private def onClient (number now : Nat)
    (act : Agenda CallEvent → CallStage → Agenda CallEvent × CallStage) (stage : ReloadStage) :
    ReloadStage :=
  match stage.callers.lookup number with
  | none => stage
  | some (agenda, calls) =>
    let calls := { calls.setMetrics stage.metrics with logs := stage.logs }
    let (agenda, calls) := agenda.wait CallStage.handle (now - agenda.now) calls
    let (agenda, calls) := act agenda calls
    let (agenda, calls) := agenda.settle CallStage.handle calls
    { stage with
      callers := stage.callers.map fun (n, c) ↦ if n = number then (n, agenda, calls) else (n, c)
      metrics := calls.client.metrics
      logs := calls.logs }

/-- A background task gets to run. -/
private def handle (task : Farewell) (agenda : Agenda Farewell) (stage : ReloadStage) :
    Agenda Farewell × ReloadStage :=
  let owners := stage.owners.release task.number
  match task.leftover with
  | .release name =>
    (agenda, { stage with
      owners
      logs := .clientReleased name (owners.alive task.number) :: stage.logs })
  | .close => (agenda, onClient task.number agenda.now CallStage.close { stage with owners })

/-- Leaves what a replaced value owned to background tasks, if there can be any. -/
private def retire (agenda : Agenda Farewell) (stage : ReloadStage) :
    List (Nat × Leftover) → Agenda Farewell × ReloadStage
  | [] => (agenda, stage)
  | (number, leftover) :: rest =>
    if stage.around.runtime then
      retire (agenda.after clientCloseDelay ⟨number, leftover⟩)
        { stage with owners := stage.owners.acquire number } rest
    else retire agenda stage rest

private def publish (loaded : Loaded) (agenda : Agenda Farewell) (stage : ReloadStage) :
    Agenda Farewell × ReloadStage :=
  let replaced := stage.live.map (·.load.number)
  let (live, leftovers) := LiveConfig.publish leaveBehind loaded stage.live
  let (agenda, stage) := retire agenda stage leftovers
  let owners := stage.owners.acquire loaded.number
  (agenda, { stage with
    live := some live
    loads := stage.loads ++ [loaded]
    callers := stage.callers ++ (loaded.calls.map fun calls ↦ (loaded.number, {}, calls)).toList
    owners := replaced.elim owners owners.release })

/-- Gives up a value that is kept. -/
private def forget (name : String) (stage : ReloadStage) : Bool × ReloadStage :=
  match stage.snapshots.lookup name with
  | none => (false, stage)
  | some loaded => (true, { stage with
      snapshots := stage.snapshots.filter (·.1 != name)
      owners := stage.owners.release loaded.number })

private def snapshot (name : String) (stage : ReloadStage) : ReloadStage :=
  match stage.live with
  | none => stage
  | some live =>
    let (_, stage) := forget name stage
    { stage with
      snapshots := (name, live.load) :: stage.snapshots
      owners := stage.owners.acquire live.load.number }

/-- Shows a value once more. -/
private def showAgain (loaded : Loaded) (stage : ReloadStage) : Json × ReloadStage :=
  (loaded.shown.report, { stage with logs := loaded.shown.logs.reverse ++ stage.logs })

/-- Makes a call under a context that was canceled before. -/
private def call (loaded : Loaded) (now : Nat) (stage : ReloadStage) : Json × ReloadStage :=
  match stage.callers.lookup loaded.number with
  | none => (.str "no client", stage)
  | some _ =>
    let script : Json := .ofMembers [("canceled", .bool true)]
    let stage := onClient loaded.number now (CallStage.makeCall "" script) stage
    match (stage.callers.lookup loaded.number).bind fun c ↦ c.2.done.head? with
    | none => (.null, stage)
    | some done => (done.member "result", stage)

private def step (script : Json) (agenda : Agenda Farewell) (stage : ReloadStage) :
    Option (Json × Agenda Farewell × ReloadStage) :=
  let named? := stage.snapshots.lookup (script.text "as")
  match script.text "do" with
  | "load" => do
    match ← loadValue stage.kind stage.around stage.loads.length (script.member "cfg") with
    | .error e => some (errorReport (.decode e.message), agenda, stage)
    | .ok (loaded, logs) =>
      let (agenda, stage) := publish loaded agenda
        { stage with logs := logs.reverse ++ stage.logs }
      let (report, stage) := showAgain loaded stage
      some (report, agenda, stage)
  | "snapshot" => some (.null, agenda, snapshot (script.text "as") stage)
  | "show" =>
    match named? with
    | none => some (.null, agenda, stage)
    | some loaded =>
      let (report, stage) := showAgain loaded stage
      some (report, agenda, stage)
  | "forget" =>
    let (found, stage) := forget (script.text "as") stage
    some (.bool found, agenda, stage)
  | "call" =>
    match named? with
    | none => some (.str "no client", agenda, stage)
    | some loaded =>
      if loaded.calls.isSome && !stage.around.runtime then none
      else
        let (report, stage) := call loaded agenda.now stage
        some (report, agenda, stage)
  | "sleep" =>
    let (agenda, stage) := agenda.wait handle (script.nat "ms") stage
    some (.null, agenda, stage)
  | _ => some (.null, agenda, stage)

private def lifeReport (stage : ReloadStage) (loaded : Loaded) : Json :=
  if loaded.followed then .bool (stage.owners.alive loaded.number) else .null

private def run : List Json → Agenda Farewell → ReloadStage → Option (List Json × Nat × ReloadStage)
  | [], agenda, stage => some ([], agenda.now, stage)
  | script :: rest, agenda, stage => do
    let (ret, agenda, stage) ← step script agenda stage
    let (agenda, stage) := agenda.settle handle stage
    let report : Json := .ofMembers [("ret", ret),
      ("t", if stage.around.runtime then .ofNat agenda.now else .null),
      ("alive", .ofList (lifeReport stage) stage.loads)]
    let (reports, last) ← run rest agenda stage
    return (report :: reports, last)

/-- Brings every batching client up to date. -/
private def catchUp (now : Nat) : List Loaded → ReloadStage → ReloadStage
  | [], stage => stage
  | loaded :: rest, stage =>
    catchUp now rest (onClient loaded.number now (fun agenda calls ↦ (agenda, calls)) stage)

def rehearse (script : Json) : Record :=
  match run (script.list "steps") {}
      { kind := script.text "type", around := .ofScript script } with
  | none => { report := panicReport }
  | some (reports, now, last) =>
    let last := catchUp now last.loads last
    { report := .arr reports, metrics := some last.metrics, logs := last.logs.reverse }

end ReloadStage

def reloads (script : Json) : Record :=
  ReloadStage.rehearse script

end Outbound.Rehearsal
