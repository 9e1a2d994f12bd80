import Outbound.Eth.RpcClient
import Outbound.Http.Client
import Outbound.Rehearsal.Offline
import Outbound.Rehearsal.Record
import Outbound.Rehearsal.Requests

/-!
# Requests without a network

Rehearsals of single requests and batches to a node, and of requests to any service, where no
server can be reached.
-/

namespace Outbound.Rehearsal

open Eth

/-- Why the context of a step has ended before the step begins. -/
def endedAtStart (step : Json) : Option Reason :=
  if step.flag "canceled" then some .canceled
  else if step.nat? "timeout" == some 0 then some .deadlineExceeded
  else none

private def callOf (v : Json) : Call :=
  ⟨((v.item? 0).bind Json.str?).getD "", (v.item? 1).getD .null⟩

private def elementReport (r : Outcome Json) : Json :=
  outcomeReport id r

private def notSent (result : Json) : Json :=
  .ofMembers [("sent", .null), ("result", result)]

private def resultReport : Option RpcResult → Json
  | some (.single outcome) => outcomeReport id outcome
  | some (.batch outcome) => outcomeReport (.ofList elementReport) outcome
  | none => .null

/-- Makes what a step asks for, whose exchange ends at once. -/
private def rpcStep (limit : Nat) (step : Json) (client : RpcClient) : Json × RpcClient :=
  let trip := client.trips.length
  let body : RpcBody :=
    if step.has "batch" then .batch ((step.list "batch").map callOf)
    else .single (callOf (step.member "call"))
  let client := (client.step (.start body (endedAtStart step))).getD client
  let client := (client.step (.reply trip (offlineExchange limit))).getD client
  (notSent (resultReport (client.trips[trip]?.bind (·.result))), client)

private def rpcSteps (limit : Nat) : List Json → RpcClient → List Json × RpcClient
  | [], client => ([], client)
  | step :: rest, client =>
    let (report, client) := rpcStep limit step client
    let (reports, last) := rpcSteps limit rest client
    (report :: reports, last)

def rpcExchanges (script : Json) : Record :=
  let limit := (script.nat? "client_timeout_ms").getD 30000
  let (reports, last) := rpcSteps limit (script.list "steps") {}
  { report := .ofMembers [("steps", .arr reports)], metrics := some last.metrics }

private def sendStep (client : HttpClient) (step : Json) : Json :=
  let url := withHost (step.text "url")
  if step.text "method" = "INNER" then
    match Url.parse url with
    | .error _ => notSent (errorReport (.http .builder))
    | .ok url =>
      if url.host?.isNone then notSent (errorReport (.http .builder))
      else
        match offlineExchange client.timeoutMs with
        | .error fault => notSent (errorReport (.http fault))
        | .ok _ => notSent .null
  else
    let (ctx, tokens) := callerContext step
    match client.requestFor ctx tokens 0 none freshId (step.text "method") url with
    | .error e => notSent (errorReport e)
    | .ok request =>
      match offlineExchange (request.limit client) with
      | .error fault => notSent (errorReport (.http fault))
      | .ok _ => notSent .null

def httpExchanges (script : Json) : Record :=
  match HttpSettings.read Json.format (hosted (script.member "cfg")) with
  | .error e => { report := errorReport (.decode e.message) }
  | .ok settings =>
    match settings.build with
    | .error e => { report := .str "no client", logs := [.httpBuildFailed e] }
    | .ok client => { report := .ofList (sendStep client) (script.list "steps") }

end Outbound.Rehearsal
