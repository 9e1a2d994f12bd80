import Outbound.Log
import Outbound.Metrics
import Outbound.Rehearsal.Notation

/-!
# Records of rehearsals

What a rehearsal leaves: the report itself, the metrics where they belong to the report, and the
events that were logged.
-/

namespace Outbound.Rehearsal

structure Record where
  report : Json
  metrics : Option Metrics := none
  logs : List LogEvent := []

/-- Metrics by name and labels. -/
def metricsReport (metrics : Metrics) : Json :=
  .ofMembers (metrics.map fun (key, metric) ↦
    let labels := key.labels.map fun (k, v) ↦ k ++ "=" ++ v
    (key.name ++ "\x7b" ++ ",".intercalate labels ++ "\x7d",
      match metric with
      | .counter n => .ofNat n
      | .distribution values => .ofList .ofNat values
      | .timings n => .ofNat n))

/-- The report with its metrics. -/
def Record.answer (r : Record) : Json :=
  match r.metrics, r.report with
  | some metrics, .obj members => .ofMembers (("metrics", metricsReport metrics) :: members)
  | _, report => report

/-- A script cannot be gone through because memory for it cannot be asked for. -/
def panicReport : Json :=
  .ofMembers [("error", .str "Panic")]

/-- Bytes that a waiting call takes where addresses have 64 bits. -/
def waitingCallBytes : Nat := 264

def Record.bad : Record := ⟨badInput, none, []⟩

end Outbound.Rehearsal
