import Outbound.Batch.Limits
import Outbound.Error
import Outbound.Log

/-!
# Batcher

Items are collected in a window that closes when it is full or when a timer that started with its
first item runs out. Closing a window raises the generation, so that the timer of an earlier
window cannot touch a later one. What has to happen outside, timers and dispatched batches, is
returned as effects.
-/

namespace Outbound

/-- What a step of a batcher asks for. -/
inductive BatchEffect (α : Type) where
  /-- Start the timer of a window. -/
  | arm (generation : Nat)
  /-- The timer of a window is not needed any more. -/
  | disarm (generation : Nat)
  /-- Process the items of a closed window. -/
  | dispatch (batch : List α)
deriving Repr, DecidableEq

/-- A batcher between steps. -/
structure Batcher (α : Type) where
  /-- Limits without zeros. -/
  limits : BatchLimits
  items : List α := []
  /-- The number of windows closed so far. -/
  generation : Nat := 0
  /-- The generation whose timer runs. -/
  timer : Option Nat := none
  closed : Bool := false

namespace Batcher

variable {α : Type}

def new (limits : BatchLimits) : Batcher α where
  limits := limits.normalized

/-- The batcher with its window closed, the items of that window, and the timer that is not
needed any more. -/
def closeWindow (b : Batcher α) : Batcher α × List α × Option Nat :=
  ({ b with items := [], generation := b.generation + 1, timer := none }, b.items, b.timer)

/-- Asks for a batch to be processed, unless it is empty. -/
def dispatch (batch : List α) : List (BatchEffect α) :=
  if batch.isEmpty then [] else [.dispatch batch]

/-- Closes the window and asks for its items to be processed. -/
def flush (b : Batcher α) : Batcher α × List (BatchEffect α) :=
  let (b, batch, timer) := b.closeWindow
  (b, (timer.toList.map .disarm) ++ dispatch batch)

/-- Adds an item to the window, unless the batcher is closed. The item that fills the window
closes it, and the first item of a window starts its timer. -/
def submit (b : Batcher α) (item : α) : Outcome (Batcher α × List (BatchEffect α)) :=
  if b.closed then .error .closed
  else
    let b := { b with items := b.items ++ [item] }
    if b.limits.maxCount ≤ b.items.length then .ok b.flush
    else if b.items.length = 1 then
      .ok ({ b with timer := some b.generation }, [.arm b.generation])
    else .ok (b, [])

/-- The timer of a generation ran out. Only the timer of the open window closes it. -/
def expire (b : Batcher α) (generation : Nat) : Batcher α × List (BatchEffect α) :=
  if b.generation = generation then ({ b with timer := none } : Batcher α).flush else (b, [])

/-- Takes no more items and closes the window. -/
def close (b : Batcher α) : Batcher α × List (BatchEffect α) :=
  if b.closed then (b, []) else ({ b with closed := true } : Batcher α).flush

@[simp] theorem items_flush (b : Batcher α) : b.flush.1.items = [] := rfl

@[simp] theorem generation_flush (b : Batcher α) :
    b.flush.1.generation = b.generation + 1 := rfl

@[simp] theorem closed_flush (b : Batcher α) : b.flush.1.closed = b.closed := rfl

theorem submit_of_closed {b : Batcher α} (h : b.closed = true) (item : α) :
    b.submit item = .error .closed := by
  simp [submit, h]

theorem close_of_closed {b : Batcher α} (h : b.closed = true) : b.close = (b, []) := by
  simp [close, h]

theorem close_of_open {b : Batcher α} (h : b.closed = false) :
    b.close = ({ b with closed := true } : Batcher α).flush := by
  simp [close, h]

@[simp] theorem closed_close (b : Batcher α) : b.close.1.closed = true := by
  cases h : b.closed <;> simp [close, h]

theorem expire_of_ne {b : Batcher α} {generation : Nat} (h : b.generation ≠ generation) :
    b.expire generation = (b, []) := by
  simp [expire, h]

theorem expire_self (b : Batcher α) :
    b.expire b.generation = ({ b with timer := none } : Batcher α).flush := by
  simp [expire]

end Batcher

/-- The event that closing a batcher logs, unless it is closed already. -/
def LogEvent.batcherClosed? {α : Type} (name : String) (b : Batcher α) : Option LogEvent :=
  if b.closed then none
  else some ⟨.debug, "service_kit::batcher", "batcher closed",
    [("batcher", .str name), ("pending", .int b.items.length)]⟩

end Outbound
