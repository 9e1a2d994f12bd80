import Outbound.Http.Exchange
import Outbound.Redis.Topology

/-!
# Rehearsals have no network

Every attempt to connect fails at once, whatever a script has a server say.
-/

namespace Outbound.Rehearsal

/-- The address that stands for the server of a script. -/
def offlineHost : String := "127.0.0.1:9"

/-- The text with the server of the script put in. -/
def withHost (s : String) : String :=
  s.replace "{host}" offlineHost

mutual

/-- A value with the server of the script put into its texts. -/
def hosted : Json → Json
  | .str s => .str (withHost s)
  | .arr items => .arr (hostedItems items)
  | .obj members => .obj (hostedMembers members)
  | v => v

def hostedItems : List Json → List Json
  | [] => []
  | v :: rest => hosted v :: hostedItems rest

def hostedMembers : List (String × Json) → List (String × Json)
  | [] => []
  | (k, v) :: rest => (k, hosted v) :: hostedMembers rest

end

/-- A request under a time limit of zero is over before connecting is tried. -/
def offlineExchange (limit : Nat) : Exchange :=
  .error (if limit = 0 then .timeout else .connect)

private def isIpv4 (host : String) : Bool :=
  match Host.parseIpv4 host.toList with
  | .ok _ => Host.endsInNumber host.toList
  | .error _ => false

/-- Why a server cannot be connected to. -/
def offlineDial : Redis.Topology → Redis.Error
  | .cluster _ _ => .reply .ioError "Failed to create initial connections" none
  | .node address =>
    match address.location with
    | .unix _ => .io .notFound (some "No such file or directory (os error 2)")
    | .tcp host _ =>
      if isIpv4 host || host.toList.contains ':' || host == "localhost" then
        .io .networkUnreachable (some "Network is unreachable (os error 101)")
      else
        .io .other (some ("failed to lookup address information: " ++
          "Temporary failure in name resolution"))

end Outbound.Rehearsal
