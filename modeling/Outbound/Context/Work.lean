import Outbound.Context.Done
import Outbound.Context.Tree

/-!
# Work under a context as time goes by

One task polls the work, and looks at the context where the work is not ready. Meanwhile contexts
are derived from one another and canceled, and time passes. The work may be ready at any poll, or
at none.
-/

namespace Outbound

inductive WorkPhase (α : Type) where
  /-- The task has not run yet. -/
  | new
  /-- The work is polled next. -/
  | waiting
  /-- The work was not ready, and the context is looked at next. -/
  | unready
  /-- The work is gone. -/
  | finished (result : Context.RunResult α)

structure LiveWork (α : Type) where
  /-- Also the contexts above the one of the work, and any others. -/
  family : ContextFamily
  ctx : Context
  phase : WorkPhase α := .new
  /-- Why the context had ended when the task began, if it had. -/
  atStart? : Option (Option Reason) := none
  /-- What the polls saw. -/
  polls : List (Poll α) := []

namespace LiveWork

variable {α : Type}

def new (family : ContextFamily) (ctx : Context) : LiveWork α :=
  { family, ctx }

inductive Event (α : Type) where
  | contexts (e : ContextFamily.Event)
  | begin
  /-- The work is polled, and has this result if it is ready. -/
  | ask (found : Option (Outcome α))
  /-- The context is looked at, for that reason first. -/
  | look (first : Reason)

namespace Event

def contexts? : Event α → Option ContextFamily.Event
  | .contexts e => some e
  | _ => none

/-- What a poll of the work found. -/
def found? : Event α → Option (Option (Outcome α))
  | .ask found => some found
  | _ => none

end Event

/-- The work when its task has begun. -/
def afterStart (s : LiveWork α) (atStart : Option Reason) : LiveWork α :=
  { s with
    atStart? := some atStart
    phase :=
      match atStart with
      | some reason => .finished (.refused reason)
      | none => .waiting }

/-- The work after a poll. -/
def afterPoll (s : LiveWork α) (p : Poll α) : LiveWork α :=
  { s with
    polls := s.polls ++ [p]
    phase :=
      match p.answer with
      | some result => .finished (.answered s.polls.length result)
      | none => .waiting }

theorem phase_afterPoll {p : Poll α} {result : Outcome α} (h : p.answer = some result)
    (s : LiveWork α) :
    (s.afterPoll p).phase = .finished (.answered s.polls.length result) := by
  rw [afterPoll, h]

theorem phase_afterPoll_of_none {p : Poll α} (h : p.answer = none) (s : LiveWork α) :
    (s.afterPoll p).phase = .waiting := by
  rw [afterPoll, h]

/-- The work after an event, if the event can happen. -/
def step (now : Time) (s : LiveWork α) : Event α → Option (LiveWork α)
  | .contexts e => (s.family.step now e).map fun family ↦ { s with family }
  | .begin =>
    match s.phase with
    | .new => some (s.afterStart (s.ctx.err s.family.tokens now))
    | _ => none
  | .ask found =>
    match s.phase, found with
    | .waiting, some result =>
      some (s.afterPoll ⟨some result, s.ctx.err s.family.tokens now⟩)
    | .waiting, none => some { s with phase := .unready }
    | _, _ => none
  | .look first =>
    match s.phase with
    | .unready => some (s.afterPoll ⟨none, s.ctx.done s.family.tokens now first⟩)
    | _ => none

section step

variable {s : LiveWork α}

theorem step_begin (h : s.phase = .new) (now : Time) :
    s.step now .begin = some (s.afterStart (s.ctx.err s.family.tokens now)) := by
  simp only [step, h]

theorem step_ask_some (h : s.phase = .waiting) (now : Time) (result : Outcome α) :
    s.step now (.ask (some result)) =
      some (s.afterPoll ⟨some result, s.ctx.err s.family.tokens now⟩) := by
  simp only [step, h]

theorem step_ask_none (h : s.phase = .waiting) (now : Time) :
    s.step now (.ask none) = some { s with phase := .unready } := by
  simp only [step, h]

theorem step_look (h : s.phase = .unready) (now : Time) (first : Reason) :
    s.step now (.look first) =
      some (s.afterPoll ⟨none, s.ctx.done s.family.tokens now first⟩) := by
  simp only [step, h]

end step

/-- All that can come of work under a context. -/
abbrev Run : Time × LiveWork α → List (Event α) → Time × LiveWork α → Prop :=
  TimedRun step

/-- What the work has come to. -/
def result (s : LiveWork α) : Context.RunResult α :=
  match s.phase with
  | .finished result => result
  | _ => .pending

/-- Nothing wakes the task before that time: it waits for the work, for the context to be canceled
and for the deadline, unless it has not begun or is over. -/
def IdleUntil (s : LiveWork α) (later : Time) : Prop :=
  match s.phase with
  | .waiting => s.polls ≠ [] ∧ s.family.tokens.isCanceled s.ctx.token = false ∧
      ∀ d, s.ctx.deadline = some d → later ≤ d
  | .unready => False
  | _ => True

/-- A move on a virtual clock, which stands still while the task can run. -/
inductive PromptMove : Time × LiveWork α → Time × LiveWork α → Prop where
  | wait {now later : Time} {s : LiveWork α} (h : now ≤ later) (idle : s.IdleUntil later) :
    PromptMove (now, s) (later, s)
  | event {now : Time} {s s' : LiveWork α} (e : Event α) (h : s.step now e = some s') :
    PromptMove (now, s) (now, s')

end LiveWork

end Outbound
