import Outbound.Json.Located
import Outbound.Redis.Client
import Outbound.Rehearsal.Configs
import Outbound.Rehearsal.Offline

/-!
# Redis without a network

A rehearsal of a self-healing client that never gets a connection: every command fails, and the
failures make the client replace its instance as often as the cooldown allows.
-/

namespace Outbound.Rehearsal

open Redis

/-- A client and what it left so far. There are no connections. -/
private structure Session where
  topology : Topology
  client : Refreshable (Instance Empty)
  metrics : Metrics := []
  /-- Latest first. -/
  logs : List LogEvent := []

namespace Session

private abbrev clientName : String := "redis"

private def handle (_ : Unit) (agenda : Agenda Unit) (s : Session) : Agenda Unit × Session :=
  (agenda, { s with logs := .clientReleased clientName false :: s.logs })

/-- Notes that a refresh came to an end. -/
private def note (outcome : RefreshOutcome) (agenda : Agenda Unit) (s : Session) :
    Agenda Unit × Session :=
  let s := { s with metrics := s.metrics.countRefresh clientName outcome }
  match outcome with
  | .refreshed =>
    (agenda.after s.client.policy.closeDelay (),
      { s with logs := .clientRefreshed clientName s.client.generation :: s.logs })
  | _ => (agenda, s)

private def failure (s : Session) : Redis.Error :=
  offlineDial s.topology

/-- Sends a command, or a pipeline that is not empty. -/
private def command (agenda : Agenda Unit) (s : Session) : Redis.Error × Agenda Unit × Session :=
  let run := execute s.client agenda.now (.error s.failure) fun connection : Empty ↦
    (nomatch connection : Except Redis.Error Unit)
  let s := { s with client := run.client }
  match run.result, run.refresh with
  | .error e, some outcome =>
    let s := { s with logs := .failureObserved clientName e.message :: s.logs }
    (e, note outcome agenda s)
  | .error e, none => (e, agenda, s)
  | .ok (), _ => (s.failure, agenda, s)

private def burst : Nat → Agenda Unit → Session → Agenda Unit × Session
  | 0, agenda, s => (agenda, s)
  | n + 1, agenda, s =>
    let (_, agenda, s) := command agenda s
    burst n agenda s

/-- What a failed command reports. The text of a failed exchange is left out. -/
private def failureReport (e : Redis.Error) : Json :=
  let isExchange :=
    match e with
    | .io _ _ => true
    | .reply .ioError _ _ => true
    | _ => false
  .ofMembers [("error", .str "Redis"), ("refused", .bool e.isRefused), ("lost", .bool e.isLost),
    ("message", if isExchange then .null else .str e.message)]

private def step (script : Json) (agenda : Agenda Unit) (s : Session) :
    Json × Agenda Unit × Session :=
  match script.text "do" with
  | "cmd" =>
    let (e, agenda, s) := command agenda s
    (failureReport e, agenda, s)
  | "pipe" =>
    if (script.list "cmds").isEmpty then (.ofMembers [("ok", .arr [])], agenda, s)
    else
      let (e, agenda, s) := command agenda s
      (failureReport e, agenda, s)
  | "burst" =>
    (.ofMembers [("ok", .ofNat 0)], burst (script.nat "n") agenda s)
  | "scan" =>
    let (e, agenda, s) := command agenda s
    let walk := scan [.error e]
    (.ofMembers [("pages", .ofList textList walk.pages),
      ("result", outcomeReport (fun _ ↦ .null) walk.result)], agenda, s)
  | "refresh" =>
    let refreshed := s.client.refresh agenda.now (.ok {} : Except Redis.Error (Instance Empty))
    (.str refreshed.outcome.name,
      note refreshed.outcome agenda { s with client := refreshed.wrapper })
  | "raw" => (failureReport s.failure, agenda, s)
  | "sleep" => (.null, agenda.wait handle (script.nat "ms") s)
  | _ => (.null, agenda, s)

private def report (ret : Json) (now : Time) (s : Session) : Json :=
  let server : List (String × Json) :=
    match s.topology with
    | .node _ => [("seen", .arr []), ("accepted", .ofNat 0)]
    | .cluster _ _ => []
  .ofMembers ([("ret", ret), ("generation", .ofNat s.client.generation),
    ("state", .str (s.client.state now).name),
    ("connected", .bool s.client.current.connection.isSome),
    ("db", .int s.topology.db)] ++ server)

private def run : List Json → Agenda Unit → Session → List Json × Session
  | [], _, s => ([], s)
  | script :: rest, agenda, s =>
    let (ret, agenda, s) := step script agenda s
    let (agenda, s) := agenda.settle handle s
    let (reports, last) := run rest agenda s
    (s.report ret agenda.now :: reports, last)

end Session

def sessions (script : Json) : Record :=
  match Settings.read Located.format (.ofLine (hosted (script.member "cfg"))) with
  | .error e => { report := errorReport (.decode e.message), metrics := some [] }
  | .ok settings =>
    match builtRedis settings with
    | (none, logs) =>
      { report := .ofMembers [("steps", .str "no client")], metrics := some [], logs }
    | (some topology, logs) =>
      let (reports, last) := Session.run (script.list "steps") {}
        { topology, client := { policy := settings.policy, current := {} } }
      { report := .ofMembers [("steps", .arr reports)]
        metrics := some last.metrics
        logs := logs ++ last.logs.reverse }

end Outbound.Rehearsal
