import Outbound.Context.Run
import Outbound.Context.Tree
import Outbound.Rehearsal.Notation

/-!
# Contexts on a virtual clock

A rehearsal of named contexts: they are derived, canceled now or later, waited for and used to
run work that takes some time.
-/

namespace Outbound.Rehearsal

/-- Contexts by name and the tokens behind them. -/
structure ContextStage where
  tokens : Tokens := {}
  named : List (String × Context) := []

namespace ContextStage

/-- The only event: the cancellation of a context. -/
def handle (ctx : Context) (agenda : Agenda Context) (stage : ContextStage) :
    Agenda Context × ContextStage :=
  (agenda, { stage with tokens := ctx.cancel stage.tokens })

private def reasonReport : Option Reason → Json :=
  .ofOption fun r ↦ .str (reasonName r)

def contextReport (stage : ContextStage) (now : Time) (ctx : Context) : Json :=
  .ofMembers [("err", reasonReport (ctx.err stage.tokens now)),
    ("deadline", .ofOption .ofNat ctx.deadline), ("request_id", .ofOption .str ctx.requestId)]

/-- The end of every context by name. -/
def overview (stage : ContextStage) (now : Time) : Json :=
  .ofMembers (stage.named.map fun (name, ctx) ↦ (name, reasonReport (ctx.err stage.tokens now)))

private def derivation? (step : Json) : Option Derivation :=
  match step.text "do" with
  | "child" => some .child
  | "clone" => some .clone
  | "timeout" => some (.timeout (step.nat "ms"))
  | "deadline" => some (.deadline (step.nat "ms"))
  | "request_id" => some (.requestId (step.text "id"))
  | "without_cancel" => some .withoutCancel
  | _ => none

private def derive? (stage : ContextStage) (now : Time) (step : Json) :
    Option (Context × Tokens) := do
  if step.text "do" == "background" then return Context.background stage.tokens
  let how ← derivation? step
  let source ← stage.named.lookup (step.text "of")
  return source.derive now stage.tokens how

/-- Waits until the context ends or `wake` comes. The waiter looks first when the clock reaches
`wake` or the deadline; cancellations of that moment come after it. -/
def waitFor (ctx : Context) (wake : Time) :
    Nat → Agenda Context → ContextStage → Agenda Context × ContextStage
  | 0, agenda, stage => (agenda, stage)
  | fuel + 1, agenda, stage =>
    if (ctx.err stage.tokens agenda.now).isSome || wake ≤ agenda.now then (agenda, stage)
    else
      let own := match ctx.deadline with
        | some d => min d wake
        | none => wake
      match agenda.next? with
      | some due =>
        if due < own then
          match agenda.take? due with
          | some (target, agenda) =>
            let (agenda, stage) := handle target agenda stage
            waitFor ctx wake fuel agenda stage
          | none => (agenda, stage)
        else ({ agenda with now := own }, stage)
      | none => ({ agenda with now := own }, stage)

private def doneStep (ctx : Context) (limit : Nat) (agenda : Agenda Context)
    (stage : ContextStage) : Json × Agenda Context × ContextStage :=
  let (agenda, stage) := waitFor ctx (agenda.now + limit) Agenda.plenty agenda stage
  (.ofMembers [("done", reasonReport (ctx.err stage.tokens agenda.now)),
    ("t", .ofNat agenda.now)], agenda, stage)

private def runStep (ctx : Context) (step : Json) (agenda : Agenda Context)
    (stage : ContextStage) : Json × Agenda Context × ContextStage :=
  let result : Outcome Json :=
    match error? (step.member "err") with
    | some e => .error e
    | none => .ok (step.member "ok")
  let finish := agenda.now + step.nat "ms"
  let start := ctx.err stage.tokens agenda.now
  let (agenda, stage) :=
    if start.isSome then (agenda, stage) else waitFor ctx finish Agenda.plenty agenda stage
  let last : Poll Json :=
    ⟨if finish ≤ agenda.now then some result else none, ctx.err stage.tokens agenda.now⟩
  let (polled, outcome) : Bool × Json :=
    match Context.run start [last] with
    | .refused reason => (false, errorReport (.ended reason))
    | .answered _ result => (true, outcomeReport id result)
    | .pending => (true, .null)
  (.ofMembers [("result", outcome), ("t", .ofNat agenda.now), ("polled", .bool polled)],
    agenda, stage)

/-- One step of a script: its report, and what it leaves. -/
def step (script : Json) (agenda : Agenda Context) (stage : ContextStage) :
    Json × Agenda Context × ContextStage :=
  let subject := stage.named.lookup (script.text "of")
  match script.text "do", subject with
  | "cancel", some ctx =>
    let (agenda, stage) := handle ctx agenda stage
    (stage.overview agenda.now, agenda, stage)
  | "sleep", _ =>
    let (agenda, stage) := agenda.wait handle (script.nat "ms") stage
    (stage.overview agenda.now, agenda, stage)
  | "cancel_later", some ctx => (.null, agenda.after (script.nat "ms") ctx, stage)
  | "info", some ctx => (stage.contextReport agenda.now ctx, agenda, stage)
  | "done", some ctx => doneStep ctx (script.nat "limit") agenda stage
  | "run", some ctx => runStep ctx script agenda stage
  | _, _ =>
    match derive? stage agenda.now script with
    | none => (badInput, agenda, stage)
    | some (ctx, tokens) =>
      let name := script.text "as"
      let stage := ⟨tokens, (name, ctx) :: stage.named.filter (·.1 != name)⟩
      (stage.contextReport agenda.now ctx, agenda, stage)

/-- The reports of all steps; whatever is due is done before the next step. -/
def run : List Json → Agenda Context → ContextStage → List Json
  | [], _, _ => []
  | script :: rest, agenda, stage =>
    let (report, agenda, stage) := step script agenda stage
    let (agenda, stage) := agenda.settle handle stage
    report :: run rest agenda stage

end ContextStage

def contexts (script : Json) : Json :=
  .arr (ContextStage.run (script.list "steps") {} {})

end Outbound.Rehearsal
