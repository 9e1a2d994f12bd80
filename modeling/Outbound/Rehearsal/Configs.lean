import Outbound.Eth.BatchingSettings
import Outbound.Grpc.Channel
import Outbound.Http.Client
import Outbound.Log.Settings
import Outbound.Redis.Topology
import Outbound.Rehearsal.Propagation
import Outbound.Rehearsal.Record
import Outbound.Rehearsal.Retries
import Outbound.Rehearsal.Scans

/-!
# Configurations and what is built from them

Reports of a configuration as it was read and after a client was built from it.
-/

namespace Outbound.Rehearsal

/-- A report with the events that were logged on the way to it. -/
structure Shown where
  report : Json
  logs : List LogEvent := []

/-! ## Redis -/

def addressReport (a : Redis.Address) : Json :=
  .ofMembers [("addr", .str a.location.text), ("db", .int a.db),
    ("username", .ofOption .str a.username), ("password", .ofOption .str a.password)]

def topologyReport : Redis.Topology → Json
  | .node address => .ofMembers [("node", addressReport address)]
  | .cluster nodes readFromReplicas =>
    .ofMembers [("cluster", .ofList addressReport nodes),
      ("read_from_replicas", .bool readFromReplicas)]

/-- A client that has not been used yet. -/
private def freshRedis (topology : Redis.Topology) : Json :=
  .ofMembers [("db", .int topology.db), ("generation", .ofNat 0), ("connected", .bool false),
    ("state", .str "Healthy"), ("topology", topologyReport topology)]

def redisReport (s : Redis.Settings) (client : Option Redis.Topology) : Shown where
  report := .ofMembers [("url", .str s.url), ("addrs", textList s.addrs),
    ("read_from_replicas", .bool s.readFromReplicas),
    ("refresh_cooldown_ms", .ofNat s.refreshCooldownMs),
    ("close_delay_ms", .ofNat s.closeDelayMs),
    ("response_timeout_ms", .ofNat s.responseTimeoutMs),
    ("connection_timeout_ms", .ofNat s.connectionTimeoutMs),
    ("debug", .str (s.debugText client.isSome)),
    ("topology", match s.topology with
      | .ok topology => topologyReport topology
      | .error e => errorReport e),
    ("client", .ofOption freshRedis client)]

/-! ## Nodes -/

private def clientText (endpoints : Eth.Endpoints) : Json :=
  .str endpoints.client.debugText

private def dialLogs (s : Eth.Settings) : List LogEvent :=
  match s.dial with
  | .ok (_, some fallback) => [.endpointFallback fallback]
  | _ => []

/-- The endpoints that a configuration gets, with the events of dialing them. -/
def dialed (s : Eth.Settings) : Option Eth.Endpoints × List LogEvent :=
  match s.dial with
  | .ok (endpoints, fallback) => (some endpoints, fallback.toList.map .endpointFallback)
  | .error e => (none, [.ethDialFailed e])

def ethReport (s : Eth.Settings) (client : Option Eth.Endpoints) : Shown where
  report := .ofMembers [("url", .str s.url), ("archive_url", .str s.archiveUrl),
    ("timeout_ms", .ofNat s.timeoutMs), ("debug", .str (s.debugText client.isSome)),
    ("dial", match s.dial with
      | .ok (endpoints, _) => clientText endpoints
      | .error e => errorReport e),
    ("client", .ofOption clientText client)]
  logs := dialLogs s

def batchingReport (s : Eth.BatchingSettings) (policy : BackoffPolicy)
    (client : Option Eth.Endpoints) : Shown :=
  let eth := ethReport s.eth client
  { eth with
    report := .ofMembers [("eth", eth.report),
      ("batch", .ofMembers [("max_wait_ms", .ofNat s.limits.maxWait),
        ("max_count", .ofNat s.limits.maxCount)]),
      ("backoff", .ofMembers [("max_retries", .ofNat s.backoff.maxRetries),
        ("policy", policyReport policy)]),
      ("client", .bool client.isSome),
      ("debug", textList (s.debugTexts client.isSome client.isSome))] }

/-! ## HTTP and gRPC -/

private def buildReport {α : Type} : Outcome α → Json
  | .ok _ => .str "ok"
  | .error e => errorReport e

def httpReport (s : HttpSettings) (client : Bool) : Shown where
  report := .ofMembers [("base_url", .str s.baseUrl), ("timeout_ms", .ofNat s.timeoutMs),
    ("client_id", .str s.clientId), ("headers", headersReport s.headers),
    ("debug", .str (s.debugText client)), ("build", buildReport s.build),
    ("client", .bool client)]

/-- What surrounds a configuration. -/
structure Surroundings where
  hostname : Option String := none
  runtime : Bool := true

def Surroundings.ofScript (script : Json) : Surroundings where
  hostname := script.text? "hostname"
  runtime := script.flagUnlessFalse "runtime"

def grpcReport (around : Surroundings) (s : Grpc.Settings) (channel : Bool) : Shown where
  report := .ofMembers [("base_url", .str s.baseUrl), ("timeout_ms", .ofNat s.timeoutMs),
    ("connect_timeout_ms", .ofNat s.connectTimeoutMs), ("client_id", .str s.clientId),
    ("headers", headersReport s.headers), ("debug", .str (s.debugText channel)),
    ("request_headers", headersReport (s.requestHeaders around.hostname)),
    ("build", if around.runtime then buildReport (s.build around.hostname) else .null),
    ("channel", .bool channel), ("client", if channel then .str "made" else .null)]

def logReport (s : LogSettings) : Json :=
  .ofMembers [("service_name", .str s.serviceName), ("level", .str s.level),
    ("otlp_endpoint", .ofOption .str s.otlpEndpoint)]

/-! ## Before and after an update -/

private def bothReports (parsed : Shown) (update : List LogEvent) (updated : Shown) : Record where
  report := .ofMembers [("parsed", parsed.report), ("updated", updated.report)]
  logs := parsed.logs ++ update ++ updated.logs

private def undecoded (e : ShapeError) : Record where
  report := errorReport (.decode e.message)

/-- Whether a channel can be built, with the event if it cannot. -/
def builtChannel (around : Surroundings) (s : Grpc.Settings) : Bool × List LogEvent :=
  if !around.runtime then (false, [.grpcNeedsRuntime s.baseUrl])
  else
    match s.build around.hostname with
    | .ok _ => (true, [])
    | .error e => (false, [.grpcBuildFailed e])

def builtHttp (s : HttpSettings) : Bool × List LogEvent :=
  match s.build with
  | .ok _ => (true, [])
  | .error e => (false, [.httpBuildFailed e])

def builtRedis (s : Redis.Settings) : Option Redis.Topology × List LogEvent :=
  match s.connect with
  | .ok topology => (some topology, [])
  | .error e => (none, [.redisBuildFailed e])

/-- Every configuration as it is made in code. -/
private def newConfigs (around : Surroundings) (cfg : Json) : Json :=
  let eth : Eth.Settings := { url := cfg.text "url", archiveUrl := cfg.text "archive_url" }
  let addrs := (cfg.list "addrs").map fun v ↦ (v.str?).getD ""
  .ofMembers [("redis", (redisReport { url := cfg.text "url" } none).report),
    ("cluster", (redisReport { addrs } none).report),
    ("eth", (ethReport eth none).report),
    ("batchable", (batchingReport { eth } {} none).report),
    ("http", (httpReport {} false).report),
    ("grpc", (grpcReport around { baseUrl := cfg.text "url" } false).report),
    ("log", logReport {})]

def configs (script : Json) : Record :=
  let cfg := script.member "cfg"
  let around := Surroundings.ofScript script
  match script.text "type" with
  | "redis" =>
    match Redis.Settings.read Json.format cfg with
    | .error e => undecoded e
    | .ok s =>
      let (client, logs) := builtRedis s
      bothReports (redisReport s none) logs (redisReport s client)
  | "eth" =>
    match Eth.Settings.read Json.format cfg with
    | .error e => undecoded e
    | .ok s =>
      let (client, logs) := dialed s
      bothReports (ethReport s none) logs (ethReport s client)
  | "batchable" =>
    match Eth.BatchingSettings.read Json.format Json.format cfg with
    | .error e => undecoded e
    | .ok s =>
      let (client, logs) := dialed s.eth
      if s.buildable waitingCallBytes client then
        bothReports (batchingReport s {} none) logs (batchingReport s s.backoff.policy client)
      else { report := panicReport }
  | "http" =>
    match HttpSettings.read Json.format cfg with
    | .error e => undecoded e
    | .ok s =>
      let (client, logs) := builtHttp s
      bothReports (httpReport s false) logs (httpReport s client)
  | "grpc" =>
    match Grpc.Settings.read Json.format cfg with
    | .error e => undecoded e
    | .ok s =>
      let (channel, logs) := builtChannel around s
      bothReports (grpcReport around s false) logs (grpcReport around s channel)
  | "log" =>
    match LogSettings.read Json.format cfg with
    | .error e => undecoded e
    | .ok s => { report := .ofMembers [("parsed", logReport s)] }
  | "new" => { report := newConfigs around cfg }
  | _ => .bad

end Outbound.Rehearsal
