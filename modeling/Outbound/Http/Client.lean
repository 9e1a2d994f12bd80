import Outbound.Agenda
import Outbound.Context
import Outbound.Error
import Outbound.Json.Shape
import Outbound.Log
import Outbound.Text.Base64
import Outbound.Trace.Propagation
import Outbound.Url.Parser

/-!
# HTTP client

A client has fields that it sends with every request, perhaps a base against which addresses are
read, and a time limit. A request adds the fields that let other services follow it, and takes
what is left until the caller's deadline as its own time limit.
-/

namespace Outbound

structure HttpSettings where
  baseUrl : String := ""
  timeoutMs : Nat := 10000
  /-- Sent with every request, unless it is empty. -/
  clientId : String := ""
  headers : List (String × String) := []

/-- The field that names the client. -/
def clientIdHeader : String := "x-client-id"

structure HttpClient where
  headers : Headers
  baseUrl : Option Url
  timeoutMs : Nat

/-- A request before it is sent. -/
structure HttpRequest where
  method : String
  url : Url
  headers : Headers
  /-- The time limit of this request, in place of the client's. -/
  timeout : Option Time := none

namespace HttpSettings

def fields {σ : Type} (format : Format σ) : List (Field σ HttpSettings) :=
  [{ name := "base_url", set := fun r v ↦ do return { r with baseUrl := ← format.text v } },
    { name := "timeout_ms", set := fun r v ↦ do
      return { r with timeoutMs := ← format.unsigned "u64" v } },
    { name := "client_id", set := fun r v ↦ do return { r with clientId := ← format.text v } },
    { name := "headers", set := fun r v ↦ do
      return { r with headers := ← format.textEntries v } }]

def read {σ : Type} (format : Format σ) (v : σ) : Shaped HttpSettings :=
  format.record "HttpCfg" (fields format) {} v

/-- Adds a configured field. -/
def addHeader (headers : Headers) (name value : String) : Outcome Headers :=
  match Header.name? name with
  | none =>
    .error (.config ("invalid header name " ++ Text.quoted name ++ ": invalid HTTP header name"))
  | some key =>
    if Header.isValue value then .ok (headers.insert key value)
    else
      .error (.config ("invalid value for header " ++ key ++ ": failed to parse header value"))

/-- The fields of every request; the client's id is set last. -/
def defaultHeaders (s : HttpSettings) : Outcome Headers := do
  let headers : Headers ← s.headers.foldlM (fun hs (name, value) ↦ addHeader hs name value) []
  if s.clientId.isEmpty then return headers
  else if Header.isValue s.clientId then return headers.insert clientIdHeader s.clientId
  else .error (.config "invalid client id: failed to parse header value")

/-- Reads an address; `what` says in a message what the address is for. -/
def readUrl (what : String) (base : Option Url) (s : String) : Outcome Url :=
  match Url.read base s with
  | .ok url => .ok url
  | .error e => .error (.config ("invalid " ++ what ++ " " ++ Text.quoted s ++ ": " ++ e.message))

def build (s : HttpSettings) : Outcome HttpClient := do
  let headers ← s.defaultHeaders
  let baseUrl ← if s.baseUrl.isEmpty then .ok none else some <$> readUrl "base url" none s.baseUrl
  return ⟨headers, baseUrl, s.timeoutMs⟩

def debugText (s : HttpSettings) (connected : Bool) : String :=
  "HttpCfg \x7b base_url: " ++ Text.quoted s.baseUrl ++ ", timeout_ms: " ++
    toString s.timeoutMs ++ ", client_id: " ++ Text.quoted s.clientId ++ ", connected: " ++
    toString connected ++ ", .. \x7d"

end HttpSettings

namespace HttpRequest

/-- The time limit in force when a client sends the request. -/
def limit (request : HttpRequest) (client : HttpClient) : Time :=
  request.timeout.getD client.timeoutMs

/-- Puts name and password of the address into a field of their own. -/
def authorize (request : HttpRequest) : HttpRequest :=
  let user := Percent.decodeText? request.url.username
  let password := request.url.password.bind Percent.decodeText?
  match user with
  | none => request
  | some user =>
    if user.isEmpty && password.isNone then request
    else
      let secret := user ++ ":" ++ password.getD ""
      let value := "Basic " ++ String.ofList (Base64.encode secret.toUTF8.toList)
      { request with
        url := { request.url with username := "", password := none }
        headers := request.headers.insert "authorization" value }

end HttpRequest

namespace HttpClient

/-- A request to an address, or the reason why there is none. An address without a host fails when
the request is built. `fresh` is the id of a request whose caller has none. -/
def request (client : HttpClient) (ended : Option Reason) (remaining : Option Time)
    (span : Option SpanContext) (requestId : Option String) (fresh method address : String) :
    Outcome HttpRequest :=
  match ended with
  | some reason => .error (.ended reason)
  | none => do
    let url ← HttpSettings.readUrl "request url" client.baseUrl address
    if url.host?.isNone then .error (.http .builder)
    else
      let request := HttpRequest.authorize ⟨method, url, [], remaining⟩
      let headers := request.headers.extend (propagationHeaders span requestId (some fresh))
      return { request with headers }

/-- A request to an address on behalf of a context. -/
def requestFor (client : HttpClient) (ctx : Context) (tokens : Tokens) (now : Time)
    (span : Option SpanContext) (fresh method address : String) : Outcome HttpRequest :=
  client.request (ctx.err tokens now) (ctx.deadline.map (· - now)) span ctx.requestId fresh method
    address

end HttpClient

namespace LogEvent

def httpBuildFailed (e : Error) : LogEvent :=
  ⟨.error, "service_kit::client::http", "failed to build http client", [("error", .str e.message)]⟩

end LogEvent

end Outbound
