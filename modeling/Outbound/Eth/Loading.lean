import Outbound.Eth.Reloading

/-!
# Loading settings of a batching client

An HTTP client is built for each address, which can fail for other reasons than the address. A
batching client is built for the endpoints that can be used, with room for its windows. What
replaced settings own is left to be released and closed before that.
-/

namespace Outbound.Eth

/-- Builds the HTTP client of an endpoint, given the time limit in milliseconds. -/
abbrev HttpBuilder := Role → Nat → Outcome Unit

namespace HttpBuilder

/-- Nothing but the address stands in the way of an endpoint. -/
def obliging : HttpBuilder := fun _ _ ↦ .ok ()

def dial (http : HttpBuilder) (role : Role) (timeoutMs : Nat) (address : String) : Outcome Url := do
  let url ← dialEndpoint address
  http role timeoutMs
  return url

def Dials (http : HttpBuilder) (role : Role) (timeoutMs : Nat) (address : String) : Prop :=
  (∃ url, Url.parse address = .ok url ∧ (url.scheme = "http" ∨ url.scheme = "https")) ∧
    http role timeoutMs = .ok ()

end HttpBuilder

namespace Endpoints

/-- The endpoints that can be used, and why one of them cannot. If neither can be used, the error is
that of the primary one. -/
def choose : Outcome Url → Outcome Url → Outcome (Endpoints × Option Fallback)
  | .ok primary, .ok archive => .ok (⟨primary, some archive⟩, none)
  | .ok primary, .error e => .ok (⟨primary, none⟩, some (.archiveUnusable e))
  | .error e, .ok archive => .ok (⟨archive, none⟩, some (.primaryUnusable e))
  | .error e, .error _ => .error e

end Endpoints

namespace Settings

def dialWith (http : HttpBuilder) (s : Settings) : Outcome (Endpoints × Option Fallback) :=
  Endpoints.choose (http.dial .primary s.timeoutMs s.url)
    (http.dial .archive s.timeoutMs s.archiveUrl)

/-- The endpoints that settings get when they come into force, with the events of dialing them. -/
def connect (http : HttpBuilder) (s : Settings) : Option Endpoints × List LogEvent :=
  match s.dialWith http with
  | .ok (endpoints, fallback) => (some endpoints, fallback.toList.map .endpointFallback)
  | .error e => (none, [.ethDialFailed e])

end Settings

/-- At least one of the two addresses can be dialed. -/
def BatchingSettings.Dials (http : HttpBuilder) (s : BatchingSettings) : Prop :=
  http.Dials .primary s.eth.timeoutMs s.eth.url ∨
    http.Dials .archive s.eth.timeoutMs s.eth.archiveUrl

/-- Builds a client for endpoints. Room for a full window of each lane is asked for at once, and a
panic ends it if there is none. -/
def BatchingClient.build? {ι : Type} (callBytes : Nat) (endpoints : Endpoints)
    (policy : BackoffPolicy) (limits : BatchLimits) : Option (BatchingClient ι) :=
  if limits.normalized.reservable callBytes then
    some (.new endpoints.client policy limits)
  else none

/-- Settings with what was built for them. -/
structure LiveSettings (ι : Type) where
  settings : BatchingSettings
  endpoints : Option Endpoints
  policy : BackoffPolicy
  client : Option (BatchingClient ι)

namespace LiveSettings

variable {ι : Type}

/-- What comes of settings that are to be in force. -/
structure Update (ι : Type) where
  /-- The endpoints of the settings they replace, which are left to be released. -/
  released : Option Endpoints
  /-- The client of the settings they replace, which is left to be closed. -/
  closed : Option (BatchingClient ι)
  logs : List LogEvent
  /-- None if a panic ends the update. -/
  value? : Option (LiveSettings ι)

def update (callBytes : Nat) (http : HttpBuilder) (old : Option (LiveSettings ι))
    (s : BatchingSettings) : Update ι :=
  let (endpoints, logs) := s.eth.connect http
  let policy := s.backoff.policy
  { released := old.bind (·.endpoints)
    closed := old.bind (·.client)
    logs
    value? := match endpoints with
      | none => some ⟨s, none, policy, none⟩
      | some endpoints => do
        let client ← BatchingClient.build? callBytes endpoints policy s.limits
        return ⟨s, some endpoints, policy, some client⟩ }

end LiveSettings

def Edition.live {ι : Type} (v : Edition) : LiveSettings ι :=
  ⟨v.settings, v.endpoints, v.settings.backoff.policy, v.client⟩

end Outbound.Eth
