import Outbound.Rehearsal.Record
import Outbound.Retry.Live

/-!
# Retries on a virtual clock

Rehearsals of waits between attempts. The system clock stands almost still while they run, and
every draw is the middle one.
-/

namespace Outbound.Rehearsal

def policyReport (p : BackoffPolicy) : Json :=
  .ofMembers [("initial_interval_ms", .ofNat p.initial.millis),
    ("current_interval_ms", .ofNat p.initial.millis),
    ("randomization_factor", .float p.jitter), ("multiplier", .float p.multiplier),
    ("max_interval_ms", .ofNat p.longest.millis),
    ("max_elapsed_time_ms", .ofNat p.limit.millis),
    ("max_retries", .ofOption .ofNat p.maxRetries)]

/-- Settings that have just come into force. -/
def loadedBackoff (settings : BackoffSettings) : BackoffConfig :=
  (BackoffConfig.reloadable.prepare none { settings }).1

/-- Settings before and after a policy was built from them. -/
def backoff (script : Json) : Json :=
  match BackoffSettings.read Json.format (script.member "cfg") with
  | .error e => errorReport (.decode e.message)
  | .ok settings =>
    let config : BackoffConfig := { settings }
    .ofMembers [("before", policyReport config.policy), ("built", policyReport settings.policy),
      ("after", policyReport (loadedBackoff settings).policy)]

/-- The next wait when next to no time has passed. -/
def nextWait? (p : BackoffPolicy) : Nanos → Option (Nanos × Nanos) :=
  p.next? 1 0.5

private def outcome (v : Json) : Except String Json :=
  match v.get? "err" with
  | some e => .error ((e.str?).getD "")
  | none => .ok (v.member "ok")

/-- When the attempts of a history begin, the first one at zero. -/
def beginnings (now : Nat) : List Nanos → List Nat
  | [] => [now]
  | wait :: rest => now :: beginnings (now + wait.ticks) rest

private def historyReport (script : Json) (h : Attempts.History Json String) : Json :=
  let shown := script.flagUnlessFalse "waits"
  let waits := h.waits.map (·.2)
  .ofMembers [("attempts", .ofNat (waits.length + 1)),
    ("at", if shown then .ofList .ofNat (beginnings 0 waits) else .null),
    ("notified", if script.flagUnlessFalse "notify" then
      .ofList (fun (e, wait) ↦ .arr [.str e, if shown then .ofNat wait else .null]) h.waits
      else .arr []),
    ("result", match h.result with
      | some (.error e) => .ofMembers [("error", .str e)]
      | some (.ok v) => .ofMembers [("ok", v)]
      | none => .null)]

def retries (script : Json) : Json :=
  match BackoffSettings.read Json.format (script.member "cfg") with
  | .error e => errorReport (.decode e.message)
  | .ok settings =>
    let config := if script.flagUnlessFalse "update" then loadedBackoff settings else { settings }
    let policy := if script.text "via" = "default" then {} else config.policy
    let outcomes := (script.list "outcomes").map outcome ++ [.ok (.str "exhausted")]
    let report :=
      historyReport script (policy.start.history policy.maxRetries (nextWait? policy) outcomes)
    .arr (List.replicate ((script.nat? "runs").getD 1) report)

end Outbound.Rehearsal
