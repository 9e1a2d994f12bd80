import Outbound.Error
import Outbound.Json.Shape
import Outbound.Log
import Outbound.Redis.Address
import Outbound.Refresh

/-!
# Where a Redis client connects to

One address means a single server, several mean a cluster. A client is made without connecting,
but the nodes of a cluster have to agree on user and password with the first of them.
-/

namespace Outbound

namespace Redis

inductive Topology where
  | node (address : Address)
  | cluster (nodes : List Address) (readFromReplicas : Bool)
deriving Repr, DecidableEq

structure Settings where
  url : String := ""
  addrs : List String := []
  readFromReplicas : Bool := true
  refreshCooldownMs : Nat := 10000
  closeDelayMs : Nat := 60000
  responseTimeoutMs : Nat := 3000
  connectionTimeoutMs : Nat := 5000

namespace Settings

def fields {σ : Type} (format : Format σ) : List (Field σ Settings) :=
  [{ name := "url", set := fun r v ↦ do return { r with url := ← format.text v } },
    { name := "addrs", set := fun r v ↦ do return { r with addrs := ← format.texts v } },
    { name := "read_from_replicas", set := fun r v ↦ do
      return { r with readFromReplicas := ← format.bool v } },
    { name := "refresh_cooldown_ms", set := fun r v ↦ do
      return { r with refreshCooldownMs := ← format.unsigned "u64" v } },
    { name := "close_delay_ms", set := fun r v ↦ do
      return { r with closeDelayMs := ← format.unsigned "u64" v } },
    { name := "response_timeout_ms", set := fun r v ↦ do
      return { r with responseTimeoutMs := ← format.unsigned "u64" v } },
    { name := "connection_timeout_ms", set := fun r v ↦ do
      return { r with connectionTimeoutMs := ← format.unsigned "u64" v } }]

def read {σ : Type} (format : Format σ) (v : σ) : Shaped Settings :=
  format.record "RedisCfg" (fields format) {} v

private def readAddress (s : String) : Outcome Address :=
  match Address.parse s with
  | .ok address => .ok address
  | .error e =>
    .error (.config ("invalid redis address " ++ Text.quoted s ++ ": " ++ e.message))

/-- The addresses of the list win over the single one. -/
def topology (s : Settings) : Outcome Topology :=
  match s.addrs with
  | [] =>
    if s.url.isEmpty then .error (.config "redis url or addrs must be set")
    else .node <$> readAddress s.url
  | [address] => .node <$> readAddress address
  | addresses => do return .cluster (← addresses.mapM readAddress) s.readFromReplicas

def policy (s : Settings) : RefreshPolicy :=
  ⟨s.refreshCooldownMs, s.closeDelayMs⟩

def debugText (s : Settings) (connected : Bool) : String :=
  "RedisCfg \x7b addrs: " ++ toString s.addrs.length ++ ", refresh_cooldown_ms: " ++
    toString s.refreshCooldownMs ++ ", close_delay_ms: " ++ toString s.closeDelayMs ++
    ", connected: " ++ toString connected ++ ", .. \x7d"

end Settings

namespace Topology

private def invalid (text : String) : Except Error Unit :=
  .error (.reply .invalidClientConfig text none)

private def agrees (first node : Address) : Except Error Unit :=
  match node.location with
  | .unix _ =>
    invalid ("This library cannot use unix socket because Redis's cluster command returns only " ++
      "cluster's IP and port.")
  | .tcp _ _ =>
    if first.password.isSome && node.password != first.password then
      invalid "Cannot use different password among initial nodes."
    else if first.username.isSome && node.username != first.username then
      invalid "Cannot use different username among initial nodes."
    else .ok ()

/-- Whether a client can be made. -/
def check : Topology → Except Error Unit
  | node _ => .ok ()
  | cluster [] _ => invalid "Initial nodes can't be empty."
  | cluster (first :: rest) _ => (first :: rest).forM (agrees first)

/-- The database that commands are sent to; a cluster has only one. -/
def db : Topology → Int
  | node address => address.db
  | cluster _ _ => 0

end Topology

/-- The topology of a new client, if one can be made. -/
def Settings.connect (s : Settings) : Outcome Topology := do
  let topology ← s.topology
  match topology.check with
  | .ok () => return topology
  | .error e => .error (.redis e)

end Redis

namespace LogEvent

def redisBuildFailed (e : Error) : LogEvent :=
  ⟨.error, "service_kit::client::redis", "failed to build redis client",
    [("error", .str e.message)]⟩

end LogEvent

end Outbound
