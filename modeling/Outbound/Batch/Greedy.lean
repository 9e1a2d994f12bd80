import Outbound.Batch.Limits

/-!
# Greedy windows

The windows that items are meant to fall into, as a function of the times at which they arrive. A
window begins with its first item and ends with the item that fills it, or else when it has been
open for the longest wait. The limits have no zeros here.
-/

namespace Outbound

/-- An item and when it arrives. -/
structure Arrival (α : Type) where
  time : Time
  item : α
  /-- The item is ahead of a window that ends at the very time of its arrival. -/
  early : Bool := false
deriving Repr, DecidableEq

def Arrival.timed {α : Type} (x : Arrival α) : Time × α := (x.time, x.item)

/-- The items that have arrived for a window, the first of which began it. -/
structure OpenWindow (α : Type) where
  first : Time × α
  rest : List (Time × α) := []

/-- A window that has ended: when, and with what items. -/
abbrev ClosedWindow (α : Type) := Time × List (Time × α)

namespace OpenWindow

variable {α : Type}

def items (w : OpenWindow α) : List (Time × α) := w.first :: w.rest

/-- When the window ends unless it is full before. -/
def deadline (limits : BatchLimits) (w : OpenWindow α) : Time := w.first.1 + limits.maxWait

/-- The item arrives before the window ends. -/
def inTime (limits : BatchLimits) (w : OpenWindow α) (x : Arrival α) : Bool :=
  x.time < w.deadline limits || (x.time == w.deadline limits && x.early)

/-- The item begins a window, which ends at once if it is full. -/
def start (limits : BatchLimits) (x : Arrival α) :
    List (ClosedWindow α) × Option (OpenWindow α) :=
  if limits.maxCount ≤ 1 then ([(x.time, [x.timed])], none) else ([], some ⟨x.timed, []⟩)

/-- The item joins the window, which ends at once if it is full. -/
def join (limits : BatchLimits) (w : OpenWindow α) (x : Arrival α) :
    List (ClosedWindow α) × Option (OpenWindow α) :=
  if limits.maxCount ≤ w.items.length + 1 then ([(x.time, w.items ++ [x.timed])], none)
  else ([], some { w with rest := w.rest ++ [x.timed] })

/-- The windows that have ended when an item has arrived, and the one that is open then. -/
def arrive (limits : BatchLimits) (w : Option (OpenWindow α)) (x : Arrival α) :
    List (ClosedWindow α) × Option (OpenWindow α) :=
  match w with
  | none => start limits x
  | some w =>
    if w.inTime limits x then w.join limits x
    else ((w.deadline limits, w.items) :: (start limits x).1, (start limits x).2)

end OpenWindow

/-- The windows of items that arrive one after the other while perhaps a window is open. -/
def greedyWindows {α : Type} (limits : BatchLimits) :
    Option (OpenWindow α) → List (Arrival α) → List (ClosedWindow α)
  | w, [] => (w.map fun w ↦ (w.deadline limits, w.items)).toList
  | w, x :: later =>
    (OpenWindow.arrive limits w x).1 ++
      greedyWindows limits (OpenWindow.arrive limits w x).2 later

end Outbound
