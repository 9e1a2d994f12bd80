import Outbound.Error
import Outbound.Log

/-!
# Single-assignment slots

A slot joins a caller who waits for a result and whoever produces it. The first result given
stays; a wait ends with it, with the loss of the producer, or with the caller's context.
-/

namespace Outbound

structure Slot (α : Type) where
  /-- The first result given. -/
  result : Option (Outcome α) := none
  /-- The producer's half is gone. -/
  producerGone : Bool := false
  /-- The waiting half is gone, dropped or finished. -/
  waiterGone : Bool := false

namespace Slot

variable {α : Type}

/-- Gives a result; only the first one has an effect, and the answer says whether it was this. -/
def resolve (slot : Slot α) (result : Outcome α) : Bool × Slot α :=
  match slot.result with
  | some _ => (false, slot)
  | none => (true, { slot with result := some result })

/-- Nobody will read a result given from now on. -/
def isAbandoned (slot : Slot α) : Bool :=
  slot.result.isSome || slot.waiterGone

def dropProducer (slot : Slot α) : Slot α :=
  { slot with producerGone := true }

def dropWaiter (slot : Slot α) : Slot α :=
  { slot with waiterGone := true }

/-- One look of the waiting half: a result that is there wins over the loss of the producer, and
that over the end of the context. -/
def poll (slot : Slot α) (ended : Option Reason) : Option (Outcome α) :=
  match slot.result with
  | some result => some result
  | none =>
    if slot.producerGone then some (.error .abandoned)
    else ended.map fun reason ↦ .error (.ended reason)

theorem resolve_of_result {slot : Slot α} {first : Outcome α} (h : slot.result = some first)
    (result : Outcome α) : slot.resolve result = (false, slot) := by
  simp [resolve, h]

theorem poll_of_result {slot : Slot α} {result : Outcome α} (h : slot.result = some result)
    (ended : Option Reason) : slot.poll ended = some result := by
  simp [poll, h]

theorem poll_of_waiting {slot : Slot α} (h : slot.result = none) (hp : slot.producerGone = false)
    (ended : Option Reason) : slot.poll ended = ended.map fun reason ↦ .error (.ended reason) := by
  simp [poll, h, hp]

theorem poll_of_producerGone {slot : Slot α} (h : slot.result = none)
    (hp : slot.producerGone = true) (ended : Option Reason) :
    slot.poll ended = some (.error .abandoned) := by
  simp [poll, h, hp]

theorem poll_eq_none_iff (slot : Slot α) (ended : Option Reason) :
    slot.poll ended = none ↔ slot.result = none ∧ slot.producerGone = false ∧ ended = none := by
  cases hr : slot.result <;> cases hp : slot.producerGone <;> simp [poll, hr, hp]

end Slot

/-- A result was given to a slot that had one. -/
def LogEvent.resolvedAgain : LogEvent :=
  ⟨.warn, "service_kit::task", "task resolved more than once, keeping the first result", []⟩

end Outbound
