import Outbound.Context

/-!
# Work under a context

Work runs until it has a result or its context ends. Both are looked at together, at one poll
after the other; where both are there, the result counts.
-/

namespace Outbound

/-- What one poll sees: the result of the work, if it is ready, and why the context ended, if it
did. -/
structure Poll (α : Type) where
  ready : Option (Outcome α)
  ended : Option Reason

namespace Poll

variable {α : Type}

/-- The answer of one poll, if it gives one. A result that is ready wins over the end of the
context. -/
def answer (p : Poll α) : Option (Outcome α) :=
  match p.ready, p.ended with
  | some result, _ => some result
  | none, some reason => some (.error (.ended reason))
  | none, none => none

theorem answer_of_ready {p : Poll α} {result : Outcome α} (h : p.ready = some result) :
    p.answer = some result := by
  simp [answer, h]

theorem answer_eq_none_iff (p : Poll α) : p.answer = none ↔ p.ready = none ∧ p.ended = none := by
  cases hr : p.ready <;> cases he : p.ended <;> simp [answer, hr, he]

/-- The number of polls made before the answer, and the answer, if one of the polls gives one. -/
def first : List (Poll α) → Option (Nat × Outcome α)
  | [] => none
  | p :: rest =>
    match p.answer with
    | some result => some (0, result)
    | none => (first rest).map fun (n, result) ↦ (n + 1, result)

end Poll

namespace Context

variable {α : Type}

/-- What running work under a context came to. -/
inductive RunResult (α : Type) where
  /-- The context had ended before; the work was never polled. -/
  | refused (reason : Reason)
  /-- An answer after some polls without one. -/
  | answered (waited : Nat) (result : Outcome α)
  /-- No poll gave an answer. -/
  | pending

/-- Runs work whose polls are given, unless the context has ended at the start. -/
def run (atStart : Option Reason) (polls : List (Poll α)) : RunResult α :=
  match atStart with
  | some reason => .refused reason
  | none =>
    match Poll.first polls with
    | some (n, result) => .answered n result
    | none => .pending

end Context

end Outbound
