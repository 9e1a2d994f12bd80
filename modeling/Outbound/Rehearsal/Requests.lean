import Outbound.Eth.Endpoints
import Outbound.Http.Client
import Outbound.Rehearsal.Propagation

/-!
# Requests that are not sent

Rehearsals of how endpoints are dialed and requests are built.
-/

namespace Outbound.Rehearsal

def rpcDial (script : Json) : Json :=
  match Eth.dialEndpoint (script.text "url") with
  | .error e => errorReport e
  | .ok url =>
    .ofMembers [("url", .str url.text), ("debug", .str (Eth.endpointDebugText url))]

/-- What stands for an id that is made up for a request. -/
def freshId : String := "<uuid4>"

private def hexAt (cs : List Char) : Bool :=
  cs.all fun c ↦ c.isDigit || ('a' ≤ c && c ≤ 'f')

/-- Whether a text has the form of an id that is made up. -/
def isFreshId (s : String) : Bool :=
  match (splitAtAll (· == '-') s.toList) with
  | [a, b, '4' :: c, d :: e, f] =>
    a.length == 8 && b.length == 4 && c.length == 3 && e.length == 3 && f.length == 12 &&
      "89ab".toList.contains d && hexAt (a ++ b ++ c ++ e ++ f)
  | _ => false

/-- The fields with every id that may have been made up replaced. -/
def maskIds (headers : Headers) : Headers :=
  headers.map fun (k, v) ↦ (k, if isFreshId v then freshId else v)

private def requestReport (r : HttpRequest) : Json :=
  .ofMembers [("method", .str r.method), ("url", .str r.url.text),
    ("timeout_ms", .ofOption .ofNat r.timeout), ("headers", headersReport (maskIds r.headers))]

/-- The context of the caller, which may have been canceled. -/
def callerContext (script : Json) : Context × Tokens :=
  let (ctx, tokens) := Context.background {}
  let (ctx, tokens) :=
    match script.nat? "timeout" with
    | some timeout => ctx.withTimeout 0 timeout tokens
    | none => (ctx, tokens)
  let ctx :=
    match script.text? "request_id" with
    | some id => ctx.withRequestId id
    | none => ctx
  (ctx, if script.flag "canceled" then ctx.cancel tokens else tokens)

def httpRequest (script : Json) : Json :=
  match HttpSettings.read Json.format (script.member "cfg") with
  | .error e => errorReport (.decode e.message)
  | .ok settings =>
    match settings.build with
    | .error e => .ofMembers [("build", errorReport e)]
    | .ok client =>
      let (ctx, tokens) := callerContext script
      let method := (script.text? "method").getD "GET"
      match client.requestFor ctx tokens (script.nat "sleep") none freshId method
          (script.text "url") with
      | .error e => errorReport e
      | .ok request => requestReport request

end Outbound.Rehearsal
