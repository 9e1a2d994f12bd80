import Outbound.Context.Done
import Outbound.TimedRun

/-!
# A slot in use

Results are given, either half is lost, the caller's context ends and the waiting half looks, in
any order.
-/

namespace Outbound

structure LiveSlot (α : Type) where
  ctx : Context
  /-- Also those above the caller's context, and any others. -/
  tokens : Tokens
  slot : Slot α := {}
  /-- What was said to those who gave a result. -/
  accepted : List Bool := []
  /-- What the wait has come to. -/
  answer : Option (Outcome α) := none

namespace LiveSlot

variable {α : Type}

inductive Event (α : Type) where
  | resolve (result : Outcome α)
  | dropProducer
  | dropWaiter
  | cancel (token : Nat)
  /-- The waiting half looks, and at the end of the context for that reason first. -/
  | poll (first : Reason)

def Event.given? : Event α → Option (Outcome α)
  | .resolve result => some result
  | _ => none

def new (ctx : Context) (tokens : Tokens) : LiveSlot α :=
  { ctx, tokens }

/-- The slot after an event, if the event can happen. A wait that gets an answer is over. -/
def step (now : Time) (s : LiveSlot α) : Event α → Option (LiveSlot α)
  | .resolve result =>
    if s.slot.producerGone then none
    else
      let (first, slot) := s.slot.resolve result
      some { s with slot, accepted := s.accepted ++ [first] }
  | .dropProducer =>
    if s.slot.producerGone then none else some { s with slot := s.slot.dropProducer }
  | .dropWaiter =>
    if s.slot.waiterGone then none else some { s with slot := s.slot.dropWaiter }
  | .cancel token => some { s with tokens := s.tokens.cancel token }
  | .poll first =>
    if s.slot.waiterGone then none
    else
      match s.slot.poll (s.ctx.done s.tokens now first) with
      | some result => some { s with slot := s.slot.dropWaiter, answer := some result }
      | none => some s

/-- All that can come of a slot. -/
abbrev Run : Time × LiveSlot α → List (Event α) → Time × LiveSlot α → Prop :=
  TimedRun step

end LiveSlot

end Outbound
