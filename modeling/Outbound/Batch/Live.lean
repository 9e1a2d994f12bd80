import Outbound.Batch.Batcher

/-!
# A batcher at work

Submitters, timers and those who close windows act on one batcher in any order. The timer of a
window is a task that sleeps and then closes the window, and whoever closes a window gives its
batch to the callback after letting go of the batcher. Every such act is an event, and what became
of the items is kept beside the batcher.

All events happen inside a runtime, which submitting an item asks for, so that timers and callbacks
can be spawned. Outside a runtime somebody may still close the batcher, and that panics if it takes
a task.
-/

namespace Outbound

/-- How far the timer task of a window has come. -/
inductive TimerPhase where
  /-- The task has not run yet. -/
  | spawned
  | sleeping (due : Time)
  /-- The task is past its sleep, and disarming comes too late. -/
  | awake
deriving Repr, DecidableEq

/-- The timer task that was spawned for the window of a generation. -/
structure WindowTimer where
  generation : Nat
  phase : TimerPhase
deriving Repr, DecidableEq

/-- A batcher with its handles and tasks and the history of its items. -/
structure LiveBatcher (α : Type) where
  batcher : Batcher α
  /-- How many handles are left. -/
  handles : Nat := 1
  timers : List WindowTimer := []
  /-- The items accepted so far, with the times of their submission. -/
  accepted : List (Time × α) := []
  /-- The batches of the windows closed so far, with the times of closing. -/
  windows : List (Time × List α) := []
  /-- The numbers of the batches that the callback has not got yet. -/
  leaving : List Nat := []
  /-- The calls of the callback: when, and with the batch of which number. -/
  handed : List (Time × Nat) := []
  /-- The items that went away with the batcher, or with a batch that no task could be spawned
  for. -/
  lost : List α := []

namespace LiveBatcher

variable {α : Type}

def new (limits : BatchLimits) : LiveBatcher α where
  batcher := .new limits

def perform (now : Time) (s : LiveBatcher α) : BatchEffect α → LiveBatcher α
  | .arm generation => { s with timers := ⟨generation, .spawned⟩ :: s.timers }
  | .disarm generation =>
    { s with timers := s.timers.filter fun t ↦ t.generation != generation || t.phase == .awake }
  | .dispatch batch =>
    { s with
      windows := s.windows ++ [(now, batch)]
      leaving := s.leaving ++ [s.windows.length] }

/-- Takes over a batcher after a step and performs what the step asks for. -/
def apply (now : Time) (s : LiveBatcher α) (result : Batcher α × List (BatchEffect α)) :
    LiveBatcher α :=
  result.2.foldl (perform now) { s with batcher := result.1 }

/-- Takes over the batcher after an item was accepted. -/
def accept (now : Time) (s : LiveBatcher α) (item : α)
    (result : Batcher α × List (BatchEffect α)) : LiveBatcher α :=
  apply now { s with accepted := s.accepted ++ [(now, item)] } result

/-- What happens to a batcher at one moment. -/
inductive Event (α : Type) where
  | clone
  | drop
  | submit (item : α)
  | close
  /-- The timer task of a generation runs for the first time and begins its sleep. -/
  | sleep (generation : Nat)
  /-- The sleep of a timer task that was due at some time ends. -/
  | wake (generation : Nat) (due : Time)
  /-- A timer task that is awake closes its window and ends. -/
  | expire (generation : Nat)
  /-- The callback gets the batch of that number. -/
  | handOver (number : Nat)
  /-- Nothing refers to the batcher any more, and it goes away with what it holds. -/
  | free
deriving Repr, DecidableEq

/-- The event is the work of a task, not of somebody with a handle. -/
def Event.isTask : Event α → Bool
  | sleep _ => true
  | wake _ _ => true
  | expire _ => true
  | handOver _ => true
  | _ => false

/-- The state after an event, if the event can happen. -/
def step (now : Time) (s : LiveBatcher α) : Event α → Option (LiveBatcher α)
  | .clone => if 0 < s.handles then some { s with handles := s.handles + 1 } else none
  | .drop => if 0 < s.handles then some { s with handles := s.handles - 1 } else none
  | .submit item =>
    if 0 < s.handles then
      match s.batcher.submit item with
      | .error _ => some s
      | .ok result => some (s.accept now item result)
    else none
  | .close => if 0 < s.handles then some (s.apply now s.batcher.close) else none
  | .sleep generation =>
    if ⟨generation, .spawned⟩ ∈ s.timers then
      some { s with
        timers := ⟨generation, .sleeping (now + s.batcher.limits.maxWait)⟩ ::
          s.timers.erase ⟨generation, .spawned⟩ }
    else none
  | .wake generation due =>
    if ⟨generation, .sleeping due⟩ ∈ s.timers ∧ due ≤ now then
      some { s with timers := ⟨generation, .awake⟩ :: s.timers.erase ⟨generation, .sleeping due⟩ }
    else none
  | .expire generation =>
    if ⟨generation, .awake⟩ ∈ s.timers then
      some (apply now { s with timers := s.timers.erase ⟨generation, .awake⟩ }
        (s.batcher.expire generation))
    else none
  | .handOver number =>
    if number ∈ s.leaving then
      some { s with
        leaving := s.leaving.erase number
        handed := s.handed ++ [(now, number)] }
    else none
  | .free =>
    if s.handles = 0 ∧ s.timers = [] then
      some { s with
        batcher := { s.batcher with items := [] }
        lost := s.lost ++ s.batcher.items }
    else none

/-- Performs effects outside a runtime, up to the first one that takes a task, and tells whether it
came to the end. -/
def performOutside (now : Time) (s : LiveBatcher α) : List (BatchEffect α) → LiveBatcher α × Bool
  | [] => (s, true)
  | .disarm generation :: rest => performOutside now (s.perform now (.disarm generation)) rest
  | .arm _ :: _ => ({ s with batcher := { s.batcher with timer := none } }, false)
  | .dispatch batch :: _ => ({ s with lost := s.lost ++ batch }, false)

/-- Closes the batcher outside a runtime, and tells whether that came to its end without a panic. -/
def closeOutside (now : Time) (s : LiveBatcher α) : LiveBatcher α × Bool :=
  performOutside now { s with batcher := s.batcher.close.1 } s.batcher.close.2

/-- The batch of a number. -/
def batch? (s : LiveBatcher α) (number : Nat) : Option (List α) :=
  s.windows[number]?.map (·.2)

/-- The clock moves, or an event happens. -/
inductive Move : Time × LiveBatcher α → Time × LiveBatcher α → Prop where
  | wait {now later : Time} {s : LiveBatcher α} (h : now ≤ later) : Move (now, s) (later, s)
  | event {now : Time} {s s' : LiveBatcher α} (e : Event α) (h : s.step now e = some s') :
    Move (now, s) (now, s')

/-- A move in which only time passes and tasks run. -/
inductive TaskMove : Time × LiveBatcher α → Time × LiveBatcher α → Prop where
  | wait {now later : Time} {s : LiveBatcher α} (h : now ≤ later) : TaskMove (now, s) (later, s)
  | event {now : Time} {s s' : LiveBatcher α} (e : Event α) (task : e.isTask = true)
    (h : s.step now e = some s') : TaskMove (now, s) (now, s')

/-- No task has anything to do before that time. -/
def IdleUntil (s : LiveBatcher α) (later : Time) : Prop :=
  s.leaving = [] ∧ ∀ t ∈ s.timers, ∃ due, t.phase = .sleeping due ∧ later ≤ due

/-- A move on a virtual clock, which stands still while a task can run. -/
inductive PromptMove : Time × LiveBatcher α → Time × LiveBatcher α → Prop where
  | wait {now later : Time} {s : LiveBatcher α} (h : now ≤ later) (idle : s.IdleUntil later) :
    PromptMove (now, s) (later, s)
  | event {now : Time} {s s' : LiveBatcher α} (e : Event α) (h : s.step now e = some s') :
    PromptMove (now, s) (now, s')

end LiveBatcher

end Outbound
