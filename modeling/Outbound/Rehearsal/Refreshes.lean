import Outbound.Rehearsal.Record
import Outbound.Refresh.Live

/-!
# Self-healing clients on a virtual clock

A rehearsal of a wrapper whose factory numbers its instances. Operations fail as the script says,
instances are held and let go, and the report shows which of them are alive.
-/

namespace Outbound.Rehearsal

/-- The name of the factory. -/
def factoryName : String := "fake"

def factoryFailure : String := "factory unavailable"

inductive RefreshEvent where
  /-- An operation takes the current instance and works for a while. -/
  | start (name : String) (ms : Nat) (failure : Option String)
  | finish (name : String) (caller : Nat) (failure : Option String)
  /-- The task that keeps a replaced instance begins. -/
  | replaced (task : Nat)
  /-- The grace of a replaced instance is over. -/
  | release (task : Nat)

structure RefreshStage where
  live : LiveRefreshable Nat String
  broken : Bool := false
  /-- The next connect looks at the wrapper first. -/
  peek : Bool := false
  holds : List (String × Nat) := []
  logs : List LogEvent := []
  done : List Json := []
  nested : List Json := []

namespace RefreshStage

private def log (stage : RefreshStage) (event : LogEvent) : RefreshStage :=
  { stage with logs := event :: stage.logs }

/-- Has something happen to the wrapper, if it can. -/
def happen (event : LiveRefreshable.Event Nat String) (now : Time) (stage : RefreshStage) :
    RefreshStage :=
  { stage with live := (stage.live.step now event).getD stage.live }

/-- A new caller, and its number. -/
def enter (inside : Option Nat) (request : RefreshRequest String) (now : Time)
    (stage : RefreshStage) : Nat × RefreshStage :=
  (stage.live.callers.length, stage.happen (.call inside request) now)

private def phase? (stage : RefreshStage) (caller : Nat) : Option (CallerPhase Nat String) :=
  (stage.live.callers[caller]?).map RefreshCaller.phase

private def outcome? (stage : RefreshStage) (caller : Nat) : Option RefreshOutcome :=
  match stage.phase? caller with
  | some (.done outcome) => outcome
  | _ => none

private def outcomeName (outcome : Option RefreshOutcome) : Json :=
  .ofOption (fun o ↦ .str o.name) outcome

/-- What `connect` sees of the wrapper, from inside the connecting of a caller. -/
private def look (caller : Nat) (now : Time) (stage : RefreshStage) : RefreshStage :=
  let (visitor, stage) := stage.enter (some caller) .refresh now
  let stage := stage.happen (.act visitor) now
  let report : Json := .ofMembers [("state", .str (stage.live.wrapper.state now).name),
    ("refresh", outcomeName (stage.outcome? visitor)),
    ("current", .ofNat stage.live.wrapper.current)]
  { stage with nested := report :: stage.nested, peek := false }

/-- The factory gives the wrapper a new client or an error. -/
private def connect (caller : Nat) (now : Time) (stage : RefreshStage) : RefreshStage :=
  let stage := if stage.peek then stage.look caller now else stage
  if stage.broken then
    (stage.happen (.connected caller (.error factoryFailure)) now).log
      (.rebuildFailed factoryName factoryFailure)
  else stage.happen (.connected caller (.ok stage.live.instances.length)) now

/-- A caller does all that is up to it, and nobody comes in between. -/
private def proceed (caller : Nat) : Nat → Agenda RefreshEvent → RefreshStage →
    Agenda RefreshEvent × RefreshStage
  | 0, agenda, stage => (agenda, stage)
  | fuel + 1, agenda, stage =>
    let acted := stage.happen (.act caller) agenda.now
    match stage.phase? caller with
    | some (.observing failure) =>
      proceed caller fuel agenda
        (if stage.live.factory.shouldRefresh failure then
          acted.log (.failureObserved factoryName failure)
        else acted)
    | some (.holding _ _ .connecting) =>
      proceed caller fuel agenda (stage.connect caller agenda.now)
    | some (.holding _ _ (.swapped _)) =>
      proceed caller fuel agenda
        (acted.log (.clientRefreshed factoryName acted.live.wrapper.generation))
    | some (.holding _ _ (.counted _)) =>
      let spawned := (List.range acted.live.graces.length).drop stage.live.graces.length
      proceed caller fuel (spawned.foldl (fun agenda n ↦ agenda.soon (.replaced n)) agenda) acted
    | some (.done _) => (agenda, stage)
    | some _ => proceed caller fuel agenda acted
    | none => (agenda, stage)

/-- More acts than any caller has. -/
private def allActs : Nat := 20

/-- A call that takes no time; the outcome of its refresh is returned, if it came to one. -/
private def callNow (request : RefreshRequest String) (agenda : Agenda RefreshEvent)
    (stage : RefreshStage) : Option RefreshOutcome × Agenda RefreshEvent × RefreshStage :=
  let (caller, stage) := stage.enter none request agenda.now
  let (agenda, stage) := proceed caller allActs agenda stage
  (stage.outcome? caller, agenda, stage)

private def resultReport (client : Nat) : Option String → Json
  | some failure => .ofMembers [("error", .str failure)]
  | none => .ofNat client

/-- The operation of a caller ends, and what it came to is returned. -/
private def finish (caller : Nat) (failure : Option String) (agenda : Agenda RefreshEvent)
    (stage : RefreshStage) : Json × Agenda RefreshEvent × RefreshStage :=
  let stage := stage.happen (.finish caller failure) agenda.now
  let result := (stage.live.callers[caller]?).map fun c ↦ resultReport (c.ranOn.getD 0) c.failure
  let (agenda, stage) := proceed caller allActs agenda stage
  (result.getD .null, agenda, stage)

def handle (event : RefreshEvent) (agenda : Agenda RefreshEvent) (stage : RefreshStage) :
    Agenda RefreshEvent × RefreshStage :=
  match event with
  | .start name ms failure =>
    let (caller, stage) := stage.enter none .execute agenda.now
    (agenda.after ms (.finish name caller failure), stage)
  | .finish name caller failure =>
    let (ret, agenda, stage) := finish caller failure agenda stage
    (agenda, { stage with
      done := .ofMembers [("as", .str name), ("t", .ofNat agenda.now), ("ret", ret)] ::
        stage.done })
  | .replaced task =>
    (agenda.after stage.live.wrapper.policy.closeDelay (.release task),
      stage.happen (.grace task) agenda.now)
  | .release task =>
    let stage := stage.happen (.grace task) agenda.now
    let stillUsed := (stage.live.graces[task]?).any fun g ↦ stage.live.owners.alive g.client
    (agenda, stage.log (.clientReleased factoryName stillUsed))

/-- Operations that take no time, one after the other. -/
private def executes (failure : Option String) : Nat → Agenda RefreshEvent → RefreshStage →
    List Json × Agenda RefreshEvent × RefreshStage
  | 0, agenda, stage => ([], agenda, stage)
  | n + 1, agenda, stage =>
    let (caller, stage) := stage.enter none .execute agenda.now
    let (ret, agenda, stage) := finish caller failure agenda stage
    let (rets, agenda, stage) := executes failure n agenda stage
    (ret :: rets, agenda, stage)

/-- Lets go of what was held under a name. -/
private def letGo (name : String) (now : Time) (stage : RefreshStage) : RefreshStage :=
  match stage.holds.lookup name with
  | none => stage
  | some client =>
    { stage.happen (.letGo client) now with holds := stage.holds.filter (·.1 != name) }

def step (script : Json) (agenda : Agenda RefreshEvent) (stage : RefreshStage) :
    Json × Agenda RefreshEvent × RefreshStage :=
  let name := script.text "as"
  match script.text "do" with
  | "policy" =>
    let policy := stage.live.wrapper.policy
    (.arr [.ofNat policy.cooldown, .ofNat policy.closeDelay, .str stage.live.factory.name],
      agenda, stage)
  | "execute" =>
    let n := (script.nat? "n").getD 1
    let (rets, agenda, stage) := executes (script.text? "fail") n agenda stage
    (if n = 1 then rets.headD .null else .arr rets, agenda, stage)
  | "execute_slow" =>
    (.null, agenda.soon (.start name (script.nat "ms") (script.text? "fail")), stage)
  | "observe" =>
    let (outcome, agenda, stage) := callNow (.observe (script.text "fail")) agenda stage
    (outcomeName outcome, agenda, stage)
  | "refresh" =>
    let (outcome, agenda, stage) := callNow .refresh agenda stage
    (outcomeName outcome, agenda, stage)
  | "broken" => (.null, agenda, { stage with broken := script.flag "value" })
  | "nested" => (.null, agenda, { stage with peek := true })
  | "hold" =>
    let client := stage.live.wrapper.current
    let stage := (stage.happen .hold agenda.now).letGo name agenda.now
    (.ofNat client, agenda, { stage with holds := (name, client) :: stage.holds })
  | "let_go" =>
    (.ofOption .ofNat (stage.holds.lookup name), agenda, stage.letGo name agenda.now)
  | "sleep" => (.null, agenda.wait handle (script.nat "ms") stage)
  | _ => (badInput, agenda, stage)

private def report (ret : Json) (now : Time) (stage : RefreshStage) : Json :=
  let lists := (if stage.done.isEmpty then [] else [("done", Json.arr stage.done.reverse)]) ++
    (if stage.nested.isEmpty then [] else [("nested", Json.arr stage.nested.reverse)])
  let live := stage.live
  .ofMembers ([("ret", ret), ("state", .str (live.wrapper.state now).name),
    ("generation", .ofNat live.wrapper.generation), ("current", .ofNat live.wrapper.current),
    ("alive", .ofList .ofNat ((List.range live.instances.length).filter live.owners.alive)),
    ("attempts", .ofNat live.connects.length)] ++ lists)

def run : List Json → Agenda RefreshEvent → RefreshStage → List Json × RefreshStage
  | [], _, stage => ([], stage)
  | script :: rest, agenda, stage =>
    let (ret, agenda, stage) := step script agenda stage
    let (agenda, stage) := agenda.settle handle stage
    let (reports, last) := run rest agenda { stage with done := [], nested := [] }
    (report ret agenda.now stage :: reports, last)

end RefreshStage

/-- Only a failure that speaks of a refused connection calls for a refresh. -/
def scriptedFactory : Factory String where
  name := factoryName
  shouldRefresh failure := Redis.Error.occursIn "refused".toList failure.toList

def refreshes (script : Json) : Record :=
  let policy : RefreshPolicy :=
    if script.has "cooldown_ms" || script.has "close_delay_ms" then
      ⟨script.nat "cooldown_ms", script.nat "close_delay_ms"⟩
    else .default
  let connected : Except String Nat :=
    if script.flag "broken" then .error factoryFailure else .ok 0
  match LiveRefreshable.new scriptedFactory policy (script.flagUnlessFalse "runtime") connected with
  | .error failure =>
    { report := .ofMembers [("error", .str "Connect"), ("message", .str failure)]
      metrics := some [] }
  | .ok live =>
    let (reports, last) := RefreshStage.run (script.list "steps") {} { live }
    { report := .ofMembers [("steps", .arr reports)]
      metrics := some last.live.metrics
      logs := last.logs.reverse }

end Outbound.Rehearsal
