import Outbound.Context.Run
import Outbound.Slot

/-!
# Waiting for the end of a context

Somebody who waits looks at the cancellation and at the deadline in either order, so that the
reason found is not always the one that the context itself would name.
-/

namespace Outbound

def Reason.other : Reason → Reason
  | .canceled => .deadlineExceeded
  | .deadlineExceeded => .canceled

namespace Context

/-- One look at whether the context has ended, for one reason first and then for the other. -/
def done (ctx : Context) (tokens : Tokens) (now : Time) (first : Reason) : Option Reason :=
  if ctx.endedBy tokens now first then some first
  else if ctx.endedBy tokens now first.other then some first.other
  else none

/-- The ways in which a caller learns at that time why the context ended. -/
inductive Reports (ctx : Context) (tokens : Tokens) (now : Time) : Reason → Prop where
  | err {reason : Reason} (h : ctx.err tokens now = some reason) : Reports ctx tokens now reason
  | done {reason : Reason} (first : Reason) (h : ctx.done tokens now first = some reason) :
    Reports ctx tokens now reason
  /-- Work is not begun. -/
  | refused {α : Type} {reason : Reason} (polls : List (Poll α))
    (h : run (ctx.err tokens now) polls = .refused reason) : Reports ctx tokens now reason
  /-- Work that is not ready is given up. -/
  | stopped {α : Type} {reason : Reason} (first : Reason)
    (h : Poll.answer (α := α) ⟨none, ctx.done tokens now first⟩ = some (.error (.ended reason))) :
    Reports ctx tokens now reason
  /-- The wait for a result ends that nobody has given. -/
  | task {α : Type} {reason : Reason} (slot : Slot α) (first : Reason)
    (unresolved : slot.result = none)
    (h : slot.poll (ctx.done tokens now first) = some (.error (.ended reason))) :
    Reports ctx tokens now reason

end Context

end Outbound
