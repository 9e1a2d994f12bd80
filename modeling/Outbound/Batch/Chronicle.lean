import Outbound.Batch.Live

/-!
# A batcher with its closed windows on record

A window is closed when it is full, when its timer runs out, or together with the batcher; in the
last case it may be empty. The record is kept beside the batcher, and nothing depends on it.
-/

namespace Outbound

/-- Why a window is closed. -/
inductive EndCause where
  | full
  | elapsed
  | closed
deriving Repr, DecidableEq

/-- The end of a window. -/
structure WindowEnd (α : Type) where
  time : Time
  cause : EndCause
  items : List α
deriving Repr, DecidableEq

namespace LiveBatcher

variable {α : Type}

/-- The window that an event closes. -/
def ending? (now : Time) (s : LiveBatcher α) : Event α → Option (WindowEnd α)
  | .submit item =>
    if !s.batcher.closed && s.batcher.limits.maxCount ≤ s.batcher.items.length + 1 then
      some ⟨now, .full, s.batcher.items ++ [item]⟩
    else none
  | .expire generation =>
    if s.batcher.generation = generation then some ⟨now, .elapsed, s.batcher.items⟩ else none
  | .close => if s.batcher.closed then none else some ⟨now, .closed, s.batcher.items⟩
  | _ => none

/-- The items of the open window, with the times of their submission. -/
def pending (s : LiveBatcher α) : List (Time × α) :=
  s.accepted.drop (s.accepted.length - s.batcher.items.length)

/-- Every timer task has run for the first time. -/
def allStarted (s : LiveBatcher α) : Bool :=
  s.timers.all (·.phase != .spawned)

/-- What has happened to a batcher since it was made, with the windows that were closed. On a prompt
clock no time passes before a timer task that was spawned runs for the first time. -/
inductive Chronicle (prompt : Prop) (limits : BatchLimits) (start : Time) :
    List (WindowEnd α) → Time × LiveBatcher α → Prop where
  | new : Chronicle prompt limits start [] (start, .new limits)
  | wait {ends : List (WindowEnd α)} {now later : Time} {s : LiveBatcher α}
    (run : Chronicle prompt limits start ends (now, s)) (h : now ≤ later)
    (started : prompt → s.allStarted = true) : Chronicle prompt limits start ends (later, s)
  | event {ends : List (WindowEnd α)} {now : Time} {s s' : LiveBatcher α}
    (run : Chronicle prompt limits start ends (now, s)) (e : Event α)
    (h : s.step now e = some s') :
    Chronicle prompt limits start (ends ++ (s.ending? now e).toList) (now, s')

end LiveBatcher

end Outbound
