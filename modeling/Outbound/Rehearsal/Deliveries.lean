import Outbound.Rehearsal.Calls
import Outbound.Rehearsal.Configs

/-!
# Batched calls without a network

Rehearsals of a batching client that is configured and reloaded, and whose batches reach no node.
-/

namespace Outbound.Rehearsal

open Eth

/-- A batching client with its clock, if there is one. -/
private structure Delivery where
  running : Option (Agenda CallEvent × CallStage) := none
  metrics : Metrics := []
  logs : List LogEvent := []

/-- Makes the client of a configuration. -/
private def configure (s : BatchingSettings) (d : Delivery) : Json × Delivery :=
  let (endpoints, logs) := dialed s.eth
  let d := { d with logs := logs.reverse ++ d.logs }
  let report : Json :=
    .ofMembers [("client", .bool endpoints.isSome), ("eth", .bool endpoints.isSome)]
  match endpoints with
  | none => (report, { d with running := none })
  | some endpoints =>
    (report, { d with running := some ({},
      { client := s.client endpoints, wire := .offline s.eth.timeoutMs }) })

/-- Makes calls one after the other. -/
private def makeCalls : Nat → List Json → Agenda CallEvent → CallStage →
    Agenda CallEvent × CallStage
  | _, [], agenda, stage => (agenda, stage)
  | n, call :: rest, agenda, stage =>
    let (agenda, stage) := CallStage.makeCall (toString n) call agenda stage
    makeCalls (n + 1) rest agenda stage

private def resultOf (done : List Json) (id : String) : Json :=
  ((done.find? fun v ↦ v.text "id" == id).map fun v ↦ v.member "result").getD .null

/-- Makes calls and waits for the last of them. -/
private def deliver (calls : List Json) (d : Delivery) : Json × Delivery :=
  match d.running with
  | none => (.str "no client", d)
  | some (agenda, stage) =>
    let (agenda, stage) := makeCalls 0 calls agenda
      { stage.setMetrics d.metrics with logs := d.logs }
    let (agenda, stage) := agenda.handleWhile CallStage.handle (!·.calls.isEmpty) Agenda.plenty
      stage
    let results := (List.range calls.length).map fun n ↦ resultOf stage.done (toString n)
    (.ofMembers [("results", .arr results), ("sent", .arr [])],
      { running := some (agenda, { stage with done := [] })
        metrics := stage.client.metrics
        logs := stage.logs })

private def deliverySteps : List Json → Delivery → Option (List Json × Delivery)
  | [], d => some ([], d)
  | step :: rest, d => do
    let (report, d) ←
      if step.has "cfg" then
        match BatchingSettings.read Json.format Json.format (hosted (step.member "cfg")) with
        | .error e => some (errorReport (.decode e.message), d)
        | .ok s => if s.reservable waitingCallBytes then some (configure s d) else none
      else some (deliver (step.list "calls") d)
    let (reports, last) ← deliverySteps rest d
    return (report :: reports, last)

def deliveries (script : Json) : Record :=
  match deliverySteps (script.list "steps") {} with
  | none => { report := panicReport }
  | some (reports, last) =>
    { report := .ofMembers [("steps", .arr reports)]
      metrics := some last.metrics
      logs := last.logs.reverse }

end Outbound.Rehearsal
