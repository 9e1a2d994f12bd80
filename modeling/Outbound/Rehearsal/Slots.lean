import Outbound.Context
import Outbound.Rehearsal.Record
import Outbound.Slot

/-!
# Slots on a virtual clock

A rehearsal of named slots, each under a context of its own: results are given now or later,
either half is dropped, and waits are started and abandoned.
-/

namespace Outbound.Rehearsal

/-- A slot with its context; `waiting` says that a wait has been started. -/
structure SlotEntry where
  ctx : Context
  slot : Slot Json := {}
  waiting : Bool := false

inductive SlotEvent where
  | look (name : String)
  | resolve (name : String) (result : Outcome Json)

structure SlotStage where
  tokens : Tokens := {}
  entries : List (String × SlotEntry) := []
  /-- The waits that ended since the last report, latest first. -/
  done : List Json := []
  logs : List LogEvent := []

namespace SlotStage

def entry? (stage : SlotStage) (name : String) : Option SlotEntry :=
  stage.entries.lookup name

def put (stage : SlotStage) (name : String) (entry : SlotEntry) : SlotStage :=
  if (stage.entry? name).isSome then
    { stage with
      entries := stage.entries.map fun (n, e) ↦ if n == name then (n, entry) else (n, e) }
  else { stage with entries := stage.entries ++ [(name, entry)] }

/-- Ends a wait that has an answer. -/
def look (name : String) (now : Time) (stage : SlotStage) : SlotStage :=
  match stage.entry? name with
  | none => stage
  | some e =>
    if !e.waiting then stage
    else
      match e.slot.poll (e.ctx.err stage.tokens now) with
      | none => stage
      | some result =>
        let stage := stage.put name { e with waiting := false, slot := e.slot.dropWaiter }
        { stage with
          done := .ofMembers [("task", .str name), ("t", .ofNat now),
            ("result", outcomeReport id result)] :: stage.done }

def resolve (name : String) (result : Outcome Json) (stage : SlotStage) : Json × SlotStage :=
  match stage.entry? name with
  | none => (.null, stage)
  | some e =>
    let (first, slot) := e.slot.resolve result
    let stage := if first then stage else { stage with logs := .resolvedAgain :: stage.logs }
    (.bool first, stage.put name { e with slot })

def handle (event : SlotEvent) (agenda : Agenda SlotEvent) (stage : SlotStage) :
    Agenda SlotEvent × SlotStage :=
  match event with
  | .look name => (agenda, stage.look name agenda.now)
  | .resolve name result => (agenda.soon (.look name), (stage.resolve name result).2)

private def resultOf (step : Json) : Outcome Json :=
  match error? (step.member "err") with
  | some e => .error e
  | none => .ok (step.member "ok")

private def newEntry (step : Json) (now : Time) (stage : SlotStage) : SlotEntry × Tokens :=
  let (ctx, tokens) :=
    match stage.entry? (step.text "ctx_of") with
    | some e => e.ctx.child stage.tokens
    | none => Context.background stage.tokens
  let (ctx, tokens) :=
    match step.nat? "timeout" with
    | some ms => ctx.withTimeout now ms tokens
    | none => (ctx, tokens)
  let ctx :=
    match step.text? "request_id" with
    | some id => ctx.withRequestId id
    | none => ctx
  ({ ctx }, tokens)

/-- All waits look again, in the order of the slots. -/
private def lookAll (agenda : Agenda SlotEvent) (stage : SlotStage) : Agenda SlotEvent :=
  stage.entries.foldl (fun a (name, _) ↦ a.soon (.look name)) agenda

/-- One step of a script: what it returns, and what it leaves. -/
def step (script : Json) (agenda : Agenda SlotEvent) (stage : SlotStage) :
    Json × Agenda SlotEvent × SlotStage :=
  let name := script.text "task"
  let unchanged (ret : Json) := (ret, agenda, stage)
  match script.text "do", stage.entry? name with
  | "new", _ =>
    let (e, tokens) := newEntry script agenda.now stage
    let id : Json := .ofOption .str e.ctx.requestId
    (.arr [id, id], agenda, ({ stage with tokens }).put name e)
  | "sleep", _ => (.null, (agenda.wait handle (script.nat "ms") stage))
  | "cancel", some e =>
    let stage := { stage with tokens := e.ctx.cancel stage.tokens }
    (.null, lookAll agenda stage, stage)
  | "resolve", some e =>
    if e.slot.producerGone then unchanged .null
    else
      let (ret, stage) := stage.resolve name (resultOf script)
      (ret, agenda.soon (.look name), stage)
  | "resolve_later", some e =>
    if e.slot.producerGone then unchanged .null
    else (.null, agenda.after (script.nat "ms") (.resolve name (resultOf script)), stage)
  | "is_abandoned", some e =>
    unchanged (if e.slot.producerGone then .null else .bool e.slot.isAbandoned)
  | "drop_resolver", some e =>
    if e.slot.producerGone then unchanged (.bool false)
    else (.bool true, agenda.soon (.look name), stage.put name { e with slot := e.slot.dropProducer })
  | "drop_task", some e =>
    if e.waiting || e.slot.waiterGone then unchanged (.bool false)
    else (.bool true, agenda, stage.put name { e with slot := e.slot.dropWaiter })
  | "await", some e =>
    if e.waiting || e.slot.waiterGone then unchanged .null
    else
      let agenda := agenda.soon (.look name)
      let agenda :=
        match e.ctx.deadline with
        | some d => if agenda.now < d then agenda.after (d - agenda.now) (.look name) else agenda
        | none => agenda
      (.null, agenda, stage.put name { e with waiting := true })
  | "abort_await", some e =>
    if e.waiting then
      (.null, agenda, stage.put name { e with waiting := false, slot := e.slot.dropWaiter })
    else unchanged .null
  | _, _ => unchanged .null

/-- The reports of all steps; whatever is due is done before the next step. -/
def run : List Json → Agenda SlotEvent → SlotStage → List Json × SlotStage
  | [], _, stage => ([], stage)
  | script :: rest, agenda, stage =>
    let (ret, agenda, stage) := step script agenda stage
    let (agenda, stage) := agenda.settle handle stage
    let (reports, last) := run rest agenda { stage with done := [] }
    (.ofMembers [("ret", ret), ("done", .arr stage.done.reverse)] :: reports, last)

end SlotStage

def slots (script : Json) : Record :=
  let (reports, last) := SlotStage.run (script.list "steps") {} {}
  { report := .arr reports, logs := last.logs.reverse }

end Outbound.Rehearsal
