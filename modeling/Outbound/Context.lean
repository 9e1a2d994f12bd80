import Outbound.Agenda
import Outbound.Error

/-!
# Request contexts

A context carries a cancellation token, perhaps a deadline and perhaps a request id. Deriving a
context gives it a token below the old one, so that canceling reaches every context derived from
the canceled one and no other; detaching starts a new token that nothing else cancels.
-/

namespace Outbound

/-- One token: the token it was derived from, and whether it is canceled. -/
structure Token where
  parent : Option Nat
  canceled : Bool
deriving Repr, DecidableEq

/-- All tokens by number, oldest first: a parent is older than its children. -/
structure Tokens where
  nodes : List Token := []
deriving Repr, DecidableEq

namespace Tokens

def isCanceled (tokens : Tokens) (i : Nat) : Bool :=
  match tokens.nodes[i]? with
  | some token => token.canceled
  | none => false

/-- A new token that no other token cancels. -/
def root (tokens : Tokens) : Nat × Tokens :=
  (tokens.nodes.length, ⟨tokens.nodes ++ [⟨none, false⟩]⟩)

/-- A new token below `i`; below a canceled token it is canceled from the start. -/
def child (tokens : Tokens) (i : Nat) : Nat × Tokens :=
  (tokens.nodes.length, ⟨tokens.nodes ++ [⟨some i, tokens.isCanceled i⟩]⟩)

@[simp] theorem isCanceled_root (tokens : Tokens) (i : Nat) :
    tokens.root.2.isCanceled i = tokens.isCanceled i := by
  rcases Nat.lt_trichotomy i tokens.nodes.length with h | rfl | h
  · simp [root, isCanceled, List.getElem?_append_left h]
  · simp [root, isCanceled]
  · have hold : tokens.nodes[i]? = none := List.getElem?_eq_none (Nat.le_of_lt h)
    have hnew : (tokens.nodes ++ [⟨none, false⟩])[i]? = none := by
      apply List.getElem?_eq_none
      rw [List.length_append]
      exact h
    simp only [root, isCanceled, hold, hnew]

@[simp] theorem isCanceled_child_self (tokens : Tokens) (i : Nat) :
    (tokens.child i).2.isCanceled (tokens.child i).1 = tokens.isCanceled i := by
  simp [child, isCanceled]

/-- Goes through the tokens from the oldest on and cancels number `i` and all below canceled
ones; `done` holds the tokens passed. -/
def spread (i : Nat) (done : List Token) : List Token → List Token
  | [] => done
  | token :: rest =>
    let reached := token.canceled || done.length == i ||
      (match token.parent with
        | some p => isCanceled ⟨done⟩ p
        | none => false)
    spread i (done ++ [{ token with canceled := reached }]) rest

/-- Cancels a token and every token below it. -/
def cancel (tokens : Tokens) (i : Nat) : Tokens :=
  ⟨spread i [] tokens.nodes⟩

end Tokens

/-- What a caller hands to an operation: when to stop, and under which id it is known. -/
structure Context where
  token : Nat
  deadline : Option Time := none
  requestId : Option String := none
deriving Repr, DecidableEq

namespace Context

/-- A context that nothing cancels and that has no deadline. -/
def background (tokens : Tokens) : Context × Tokens :=
  let (token, tokens) := tokens.root
  (⟨token, none, none⟩, tokens)

/-- A context that is canceled with this one, and not the other way round. -/
def child (ctx : Context) (tokens : Tokens) : Context × Tokens :=
  let (token, tokens) := tokens.child ctx.token
  ({ ctx with token }, tokens)

/-- A child with a deadline; an earlier one already set stays. -/
def withDeadline (ctx : Context) (deadline : Time) (tokens : Tokens) : Context × Tokens :=
  let (derived, tokens) := ctx.child tokens
  let earlier :=
    match ctx.deadline with
    | some current => if current < deadline then current else deadline
    | none => deadline
  ({ derived with deadline := some earlier }, tokens)

/-- A child whose deadline is some time from now. -/
def withTimeout (ctx : Context) (now timeout : Time) (tokens : Tokens) : Context × Tokens :=
  ctx.withDeadline (now + timeout) tokens

/-- The same context under another request id. -/
def withRequestId (ctx : Context) (id : String) : Context :=
  { ctx with requestId := some id }

/-- A context with the same request id that neither the caller's cancellation nor its deadline
reaches, for work that outlives the caller. -/
def withoutCancel (ctx : Context) (tokens : Tokens) : Context × Tokens :=
  let (token, tokens) := tokens.root
  (⟨token, none, ctx.requestId⟩, tokens)

def cancel (ctx : Context) (tokens : Tokens) : Tokens :=
  tokens.cancel ctx.token

/-- Whether the deadline has come. -/
def expired (ctx : Context) (now : Time) : Bool :=
  match ctx.deadline with
  | some deadline => deadline ≤ now
  | none => false

/-- Whether that is a reason for which the context has ended; there may be two. -/
def endedBy (ctx : Context) (tokens : Tokens) (now : Time) : Reason → Bool
  | .canceled => tokens.isCanceled ctx.token
  | .deadlineExceeded => ctx.expired now

/-- None while the context is live, otherwise the reason it ended. -/
def err (ctx : Context) (tokens : Tokens) (now : Time) : Option Reason :=
  if tokens.isCanceled ctx.token then some .canceled
  else if ctx.expired now then some .deadlineExceeded
  else none

end Context

end Outbound
