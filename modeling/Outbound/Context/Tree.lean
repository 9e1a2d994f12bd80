import Outbound.Context
import Outbound.TimedRun

/-!
# Contexts derived from one another

Contexts are made from nothing or derived from others, in any order, and canceled in between. Each
is kept with the way in which it came about, from which follows what cancels it, what its deadline
is and under which id it is known.
-/

namespace Outbound

inductive Derivation where
  | clone
  | child
  | timeout (timeout : Time)
  | deadline (deadline : Time)
  | requestId (id : String)
  | withoutCancel
deriving Repr, DecidableEq

def Context.derive (ctx : Context) (now : Time) (tokens : Tokens) : Derivation → Context × Tokens
  | .clone => (ctx, tokens)
  | .child => ctx.child tokens
  | .timeout timeout => ctx.withTimeout now timeout tokens
  | .deadline deadline => ctx.withDeadline deadline tokens
  | .requestId id => (ctx.withRequestId id, tokens)
  | .withoutCancel => ctx.withoutCancel tokens

/-- How and when a context came about. One that is made from nothing is not derived. -/
structure Link where
  number : Nat
  time : Time
  how : Option Derivation
deriving Repr, DecidableEq

namespace Link

/-- Neither cancellation nor a deadline comes from further above. -/
def isRoot (l : Link) : Bool :=
  l.how.all (· = .withoutCancel)

/-- The context has a token of its own. -/
def makesToken (l : Link) : Bool :=
  match l.how with
  | some .clone | some (.requestId _) => false
  | _ => true

def deadline? (l : Link) : Option Time :=
  match l.how with
  | some (.timeout timeout) => some (l.time + timeout)
  | some (.deadline deadline) => some deadline
  | _ => none

def requestId? (l : Link) : Option String :=
  match l.how with
  | some (.requestId id) => some id
  | _ => none

end Link

/-- How a context came about, latest link first. -/
abbrev Lineage := List Link

namespace Lineage

/-- The links back to the last context that nothing from further above reaches. -/
def sinceRoot : Lineage → Lineage
  | [] => []
  | l :: rest => if l.isRoot then [l] else l :: sinceRoot rest

/-- The contexts whose tokens the context is canceled with, by number. The first of them made the
token that it has itself. -/
def line (links : Lineage) : List Nat :=
  (links.sinceRoot.filter Link.makesToken).map Link.number

/-- The deadlines that were set for the context and for those above it. -/
def deadlines (links : Lineage) : List Time :=
  links.sinceRoot.filterMap Link.deadline?

/-- The id that was set last, wherever this was. -/
def requestId? (links : Lineage) : Option String :=
  links.findSome? Link.requestId?

end Lineage

structure FamilyMember where
  ctx : Context
  lineage : Lineage
deriving Repr, DecidableEq

/-- All contexts in the order in which they were made. -/
structure ContextFamily where
  tokens : Tokens := {}
  members : List FamilyMember := []
deriving Repr, DecidableEq

namespace ContextFamily

inductive Event where
  | background
  | derive (source : Nat) (how : Derivation)
  | cancel (target : Nat)
deriving Repr, DecidableEq

def add (now : Time) (f : ContextFamily) (above : Lineage) (how : Option Derivation)
    (made : Context × Tokens) : ContextFamily :=
  ⟨made.2, f.members ++ [⟨made.1, ⟨f.members.length, now, how⟩ :: above⟩]⟩

/-- The family after an event, if the event can happen. -/
def step (now : Time) (f : ContextFamily) : Event → Option ContextFamily
  | .background => some (f.add now [] none (Context.background f.tokens))
  | .derive source how => do
    let m ← f.members[source]?
    return f.add now m.lineage (some how) (m.ctx.derive now f.tokens how)
  | .cancel target => do
    let m ← f.members[target]?
    return { f with tokens := m.ctx.cancel f.tokens }

/-- All that can come of a family by deriving and canceling. -/
abbrev Run : Time × ContextFamily → List Event → Time × ContextFamily → Prop :=
  TimedRun step

/-- A context was canceled that has the token which that one made. -/
def Canceled (f : ContextFamily) (events : List Event) (maker : Nat) : Prop :=
  ∃ (j : Nat) (target : FamilyMember), Event.cancel j ∈ events ∧ f.members[j]? = some target ∧
    target.lineage.line.head? = some maker

end ContextFamily

end Outbound
