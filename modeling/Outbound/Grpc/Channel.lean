import Outbound.Grpc.Metadata
import Outbound.Grpc.Target
import Outbound.Json.Shape
import Outbound.Log

/-!
# gRPC channels

A channel connects when it is first used, so that building one checks no more than the form of
its target and of the metadata that it stamps on every call.
-/

namespace Outbound

namespace Grpc

structure Settings where
  baseUrl : String := "http://localhost:9080"
  /-- The time limit of a call; zero for none. -/
  timeoutMs : Nat := 0
  connectTimeoutMs : Nat := 5000
  clientId : String := ""
  headers : List (String × String) := []

/-- A channel by what it stamps on calls. -/
structure Channel where
  metadata : Headers

namespace Settings

def fields {σ : Type} (format : Format σ) : List (Field σ Settings) :=
  [{ name := "base_url", set := fun r v ↦ do return { r with baseUrl := ← format.text v } },
    { name := "timeout_ms", set := fun r v ↦ do
      return { r with timeoutMs := ← format.unsigned "u64" v } },
    { name := "connect_timeout_ms", set := fun r v ↦ do
      return { r with connectTimeoutMs := ← format.unsigned "u64" v } },
    { name := "client_id", set := fun r v ↦ do return { r with clientId := ← format.text v } },
    { name := "headers", set := fun r v ↦ do
      return { r with headers := ← format.textEntries v } }]

def read {σ : Type} (format : Format σ) (v : σ) : Shaped Settings :=
  format.record "GrpcCfg" (fields format) {} v

/-- The key under which the client is named. -/
def clientIdKey : String := "x-client-id"

/-- Sets an entry in place of one of exactly the same key. -/
private def put (headers : List (String × String)) (key value : String) :
    List (String × String) :=
  headers.filter (·.1 != key) ++ [(key, value)]

/-- What is sent with every call: the configured headers, and the client's id. Without an id the
name of the machine stands in for it, if there is one. -/
def requestHeaders (s : Settings) (hostname : Option String) : List (String × String) :=
  let headers := if s.clientId.isEmpty then s.headers else put s.headers clientIdKey s.clientId
  let named := (headers.lookup clientIdKey).any (!·.isEmpty)
  match hostname with
  | some host => if named then headers else put headers clientIdKey host
  | none => headers

theorem requestHeaders_of_clientId {s : Settings} (h : s.clientId ≠ "")
    (hostname : Option String) :
    s.requestHeaders hostname = Headers.insert s.headers clientIdKey s.clientId := by
  have hempty : s.clientId.isEmpty = false := by simpa using h
  have hlookup : (put s.headers clientIdKey s.clientId).lookup clientIdKey = some s.clientId :=
    Headers.get?_insert_self s.headers clientIdKey s.clientId
  cases hostname with
  | none =>
    simp only [requestHeaders, hempty]
    rfl
  | some host =>
    simp [requestHeaders, hempty, hlookup]
    rfl

theorem requestHeaders_of_named {s : Settings} {id : String} (h : s.clientId = "")
    (hid : s.headers.lookup clientIdKey = some id) (hne : id ≠ "") (hostname : Option String) :
    s.requestHeaders hostname = s.headers := by
  cases hostname <;> simp [requestHeaders, h, hid, hne]

theorem requestHeaders_of_unnamed {s : Settings} (h : s.clientId = "")
    (hid : s.headers.lookup clientIdKey = none) (hostname : Option String) :
    s.requestHeaders hostname =
      hostname.elim s.headers (Headers.insert s.headers clientIdKey) := by
  cases hostname with
  | none => simp [requestHeaders, h]
  | some host =>
    simp [requestHeaders, h, hid]
    rfl

def build (s : Settings) (hostname : Option String) : Outcome Channel := do
  if !isTarget s.baseUrl then
    .error (.config ("invalid grpc url " ++ Text.quoted s.baseUrl ++ ": invalid URI"))
  else return ⟨← metadataEntries (s.requestHeaders hostname)⟩

def debugText (s : Settings) (connected : Bool) : String :=
  "GrpcCfg \x7b base_url: " ++ Text.quoted s.baseUrl ++ ", timeout_ms: " ++
    toString s.timeoutMs ++ ", client_id: " ++ Text.quoted s.clientId ++ ", connected: " ++
    toString connected ++ ", .. \x7d"

end Settings

end Grpc

namespace LogEvent

private def grpcTarget : String := "service_kit::client::grpc"

def grpcBuildFailed (e : Error) : LogEvent :=
  ⟨.error, grpcTarget, "failed to build grpc channel", [("error", .str e.message)]⟩

def grpcNeedsRuntime (baseUrl : String) : LogEvent :=
  ⟨.error, grpcTarget, "grpc channel needs a tokio runtime", [("base_url", .str baseUrl)]⟩

end LogEvent

end Outbound
