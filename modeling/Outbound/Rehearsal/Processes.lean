import Outbound.Config.Load
import Outbound.Grpc.Target
import Outbound.Log.Filter
import Outbound.Metrics.Exposition
import Outbound.Rehearsal.Configs

/-!
# Processes

A rehearsal of a process from its start: configurations are loaded from files and from the
environment, logging and metrics are set up, and other rehearsals run in between.
-/

namespace Outbound.Rehearsal

/-! ## The configuration of a service -/

/-- What a service is configured with. -/
structure ServiceSettings where
  log : LogSettings := {}
  redis : Option Redis.Settings := none
  eth : Option Eth.BatchingSettings := none
  http : Option HttpSettings := none
  grpc : Option Grpc.Settings := none

namespace ServiceSettings

private def optional {α : Type} (read : Setting → Shaped α) (v : Setting) : Shaped (Option α) :=
  match Setting.format.present v with
  | none => .ok none
  | some v => some <$> read v

private def fields : List (Field Setting ServiceSettings) :=
  let format := Setting.format
  [{ name := "log", set := fun r v ↦ do return { r with log := ← LogSettings.read format v } },
    { name := "redis", set := fun r v ↦ do
      return { r with redis := ← optional (Redis.Settings.read format) v } },
    { name := "eth", set := fun r v ↦ do
      return { r with eth := ← optional (Eth.BatchingSettings.read format Setting.strictFormat) v } },
    { name := "http", set := fun r v ↦ do
      return { r with http := ← optional (HttpSettings.read format) v } },
    { name := "grpc", set := fun r v ↦ do
      return { r with grpc := ← optional (Grpc.Settings.read format) v } }]

def read (v : Setting) : Shaped ServiceSettings :=
  Setting.format.record "App" fields {} v

private def part {α : Type} (shown : α → Shown) (s : Option α) : Shown :=
  match s with
  | none => { report := .null }
  | some s => shown s

/-- The settings as they were read; nothing is built from them. -/
def shown (hostname : Option String) (s : ServiceSettings) : Shown :=
  let redis := part (fun r ↦ redisReport r none) s.redis
  let eth := part (fun r ↦ batchingReport r {} none) s.eth
  let http := part (fun r ↦ httpReport r false) s.http
  let grpc := part (fun r ↦ grpcReport ⟨hostname, false⟩ r false) s.grpc
  { report := .ofMembers [("log", logReport s.log), ("redis", redis.report), ("eth", eth.report),
      ("http", http.report), ("grpc", grpc.report)]
    logs := redis.logs ++ eth.logs ++ http.logs ++ grpc.logs }

end ServiceSettings

/-! ## Steps -/

/-- Where metrics go once they are collected for all of a process. -/
inductive Collection where
  /-- They can be asked for. -/
  | kept
  /-- They are served at an address. -/
  | served
deriving DecidableEq

structure ProcessStage where
  files : Config.Files
  env : Environment
  /-- Which events are printed, if any are. -/
  filter : Option LogFilter := none
  collection : Option Collection := none
  metrics : Metrics := []

namespace ProcessStage

private def configError (text : String) : Json :=
  errorReport (.config text)

private def collectedTwice : String :=
  "failed to install exporter as global recorder: " ++
    "attempted to set a recorder after the metrics system was already initialized"

/-- What is wrong with the address of a collector of spans. Nothing is sent to it. -/
private def collectorFault? (service address : String) : Option String :=
  match Grpc.checkTarget address with
  | .ok () => none
  | .error e =>
    some ("failed to initialize OTLP tracer for '" ++ service ++ "' at '" ++ address ++
      "': Exporter otlp encountered the following error(s): invalid URI " ++ e.message)

/-- Begins to print events. -/
private def startLogging (service level : String) (collector : Option String)
    (stage : ProcessStage) : Json × ProcessStage :=
  match (collector.filter (!·.isEmpty)).bind (collectorFault? service) with
  | some text => (configError text, stage)
  | none =>
    if stage.filter.isSome then
      (configError ("failed to install tracing subscriber: " ++
        "a global default trace dispatcher has already been set"), stage)
    else
      let filter := LogFilter.choose (stage.env.get? "RUST_LOG") level
      (outcomeReport (fun () ↦ .null) (.ok ()), { stage with filter := some filter })

private def loadStep (script : Json) (stage : ProcessStage) : Shown × ProcessStage :=
  let env := Config.withVariables stage.files stage.env
  let stage := { stage with env }
  let loaded := Config.load stage.files env (script.text? "path")
  if script.text "as" = "app" then
    match loaded.bind fun v ↦ Config.shaped (ServiceSettings.read v) with
    | .error e => ({ report := errorReport e }, stage)
    | .ok settings =>
      let shown := settings.shown (env.get? "HOSTNAME")
      ({ shown with report := .ofMembers [("ok", shown.report)] }, stage)
  else ({ report := outcomeReport Setting.toJson loaded }, stage)

/-- Runs another rehearsal. Its metrics are part of its report unless the process collects
them. -/
private def runStep (rehearse : Json → Record) (input : Json) (stage : ProcessStage) :
    Shown × ProcessStage :=
  let record := rehearse input
  if stage.collection.isSome then
    ({ report := record.report, logs := record.logs },
      { stage with metrics := stage.metrics.join (record.metrics.getD []) })
  else ({ report := record.answer, logs := record.logs }, stage)

private def step (rehearse : Json → Record) (script : Json) (stage : ProcessStage) :
    Shown × ProcessStage :=
  let silent (result : Json × ProcessStage) : Shown × ProcessStage :=
    ({ report := result.1 }, result.2)
  let done : Json := outcomeReport (fun () ↦ .null) (.ok ())
  match script.text "do" with
  | "load" => loadStep script stage
  | "run" => runStep rehearse (script.member "input") stage
  | "init_tracing" =>
    silent (startLogging (script.text "service") (script.text "level") (script.text? "otlp") stage)
  | "init_from_config" =>
    match LogSettings.read Json.format (script.member "cfg") with
    | .error e => silent (errorReport (.decode e.message), stage)
    | .ok s => silent (startLogging s.serviceName s.level s.otlpEndpoint stage)
  | "init_metrics" =>
    silent (if stage.collection.isSome then
        (configError ("failed to install prometheus recorder: " ++ collectedTwice), stage)
      else (done, { stage with collection := some .kept }))
  | "install_prometheus" =>
    silent (if stage.collection.isSome then
        (configError ("failed to install prometheus exporter on " ++ script.text "addr" ++ ": " ++
          collectedTwice), stage)
      else (done, { stage with collection := some .served }))
  | "render" =>
    silent (textList (if stage.collection = some .kept then stage.metrics.exposition
      else ["# Metrics recorder not initialized"]), stage)
  | _ => silent (.null, stage)

private def eventReport (event : LogEvent) : Json :=
  .ofMembers (event.fields ++ [("level", .str event.level.name), ("message", .str event.message),
    ("target", .str event.target), ("stamped", .bool true)])

private def printed (stage : ProcessStage) (logs : List LogEvent) : List Json :=
  match stage.filter with
  | none => []
  | some filter => (logs.filter filter.allows).map eventReport

private def run (rehearse : Json → Record) : List Json → ProcessStage → List Json
  | [], _ => []
  | script :: rest, stage =>
    let (shown, stage) := step rehearse script stage
    .ofMembers [("ret", shown.report), ("logs", .arr (stage.printed shown.logs))] ::
      run rehearse rest stage

private def texts (v : Json) : List (String × String) :=
  (v.obj?.getD []).filterMap fun (key, v) ↦ v.str?.map fun s ↦ (key, s)

end ProcessStage

/-- The rehearsal of a process in which other rehearsals can run. -/
def processes (rehearse : Json → Record) (script : Json) : Record where
  report := .arr (ProcessStage.run rehearse (script.list "steps")
    { files := ProcessStage.texts (script.member "files")
      env := ProcessStage.texts (script.member "env") })

end Outbound.Rehearsal
