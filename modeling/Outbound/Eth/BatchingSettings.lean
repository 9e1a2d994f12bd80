import Outbound.Eth.BatchingClient
import Outbound.Eth.Endpoints
import Outbound.Text.Duration

/-!
# Settings of a batching client

The settings of the endpoints stand beside those of windows and retries, in one record that can
only be given by names.
-/

namespace Outbound

def BatchLimits.debugText (limits : BatchLimits) : String :=
  "BatchConfig \x7b max_wait: " ++ Text.millis limits.maxWait ++ ", max_count: " ++
    toString limits.maxCount ++ " \x7d"

namespace Eth

structure BatchingSettings where
  eth : Settings := {}
  limits : BatchLimits := .default
  backoff : BackoffSettings := {}

namespace BatchingSettings

private def ownFields {σ : Type} (format : Format σ) : List (Field σ BatchingSettings) :=
  [{ name := "batch", set := fun r v ↦ do
      return { r with limits := ← BatchLimits.read format v } },
    { name := "backoff", set := fun r v ↦ do
      return { r with backoff := ← BackoffSettings.read format v } }]

/-- Reads the fields of windows and retries, and from what is left those of the endpoints; `flat`
is the format of the latter. -/
def read {σ : Type} (format flat : Format σ) (v : σ) : Shaped BatchingSettings := do
  let name := "BatchableEthCfg"
  match ← format.members name v with
  | .positional _ => .error (.wrongType "sequence" ("struct " ++ name))
  | .named members =>
    let own := ownFields format
    let settings ← Field.setNamed own members {}
    let rest := members.filter fun (key, _) ↦ !own.any fun f ↦ f.name == key
    let eth ← Field.read "EthCfg" (Settings.fields flat) {} (.named rest)
    return { settings with eth }

/-- The parts of the text that do not depend on the retries. -/
def debugTexts (s : BatchingSettings) (dialed connected : Bool) : List String :=
  ["BatchableEthCfg \x7b eth: " ++ s.eth.debugText dialed ++ ", batch: " ++ s.limits.debugText,
    " " ++ toString connected ++ " \x7d"]

/-- Whether room for the windows of a client can be asked for, when a waiting call takes that many
bytes. -/
def reservable (s : BatchingSettings) (callBytes : Nat) : Bool :=
  s.limits.normalized.reservable callBytes

/-- Whether building what belongs to the settings comes to an end; without room for the windows of
a client it panics. -/
def buildable (s : BatchingSettings) (callBytes : Nat) (endpoints : Option Endpoints) : Bool :=
  endpoints.isNone || s.reservable callBytes

/-- The client that is built for the endpoints. -/
def client {ι : Type} (s : BatchingSettings) (endpoints : Endpoints) : BatchingClient ι :=
  .new endpoints.client s.backoff.policy s.limits

end BatchingSettings

end Eth

end Outbound
