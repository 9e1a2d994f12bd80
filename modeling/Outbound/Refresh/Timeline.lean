import Outbound.Refresh.Live

/-!
# For what instances are kept

An instance is kept while it is current, while an operation or somebody outside has it, and from
its replacement to its release. A timeline is a run with the times of all replacements, on a clock
that goes on as it likes, or on one that stands still while something can be done.
-/

namespace Outbound

/-- An instance in the hands of a caller. -/
inductive Hand where
  | operation (client : Nat)
  | replaced (client : Nat)
deriving Repr, DecidableEq

namespace Hand

def client : Hand → Nat
  | operation client => client
  | replaced client => client

def isReplaced : Hand → Bool
  | operation _ => false
  | replaced _ => true

end Hand

def CallerPhase.hand? {γ ε : Type} : CallerPhase γ ε → Option Hand
  | .operating client => some (.operation client)
  | .holding _ _ (.swapped old) => some (.replaced old)
  | .holding _ _ (.counted old) => some (.replaced old)
  | _ => none

/-- A task in that phase has nothing to do before that time. -/
def GracePhase.idleUntil (later : Time) : GracePhase → Bool
  | .spawned => false
  | .sleeping due => later ≤ due
  | .done => true

namespace LiveRefreshable

variable {γ ε : Type}

/-- An operation or somebody outside has the instance. -/
def InUse (s : LiveRefreshable γ ε) (client : Nat) : Prop :=
  (∃ c ∈ s.callers, c.phase = .operating client) ∨ client ∈ s.held

/-- The instance was replaced, and its release is still to come. -/
def AwaitsRelease (s : LiveRefreshable γ ε) (client : Nat) : Prop :=
  (∃ c ∈ s.callers, c.phase.hand? = some (.replaced client)) ∨
    ∃ g ∈ s.graces, g.client = client ∧ g.phase ≠ .done

/-- No replaced instance has to be passed on, and no task has anything to do before that time. -/
def idleUntil (s : LiveRefreshable γ ε) (later : Time) : Bool :=
  (s.callers.all fun c ↦ !c.phase.hand?.any Hand.isReplaced) &&
    s.graces.all fun g ↦ g.phase.idleUntil later

/-- The instance that is replaced in a step at that time, if one is. -/
def replacedBy (now : Time) (s s' : LiveRefreshable γ ε) : List (Nat × Time) :=
  if s'.wrapper.current = s.wrapper.current then [] else [(s.wrapper.current, now)]

/-- A run with the instances that were replaced in it and when. On a prompt clock no time passes
while something can be done. -/
inductive Timeline (prompt : Prop) (x : Time × LiveRefreshable γ ε) :
    List (Nat × Time) → Time × LiveRefreshable γ ε → Prop where
  | refl : Timeline prompt x [] x
  | wait {replaced : List (Nat × Time)} {now later : Time} {s : LiveRefreshable γ ε}
    (run : Timeline prompt x replaced (now, s)) (h : now ≤ later)
    (idle : prompt → s.idleUntil later = true) : Timeline prompt x replaced (later, s)
  | event {replaced : List (Nat × Time)} {now : Time} {s s' : LiveRefreshable γ ε}
    (run : Timeline prompt x replaced (now, s)) (e : Event γ ε) (h : s.step now e = some s') :
    Timeline prompt x (replaced ++ replacedBy now s s') (now, s')

/-- What comes of a list of events on a prompt clock, each so long after the one before. -/
def watch (x : Time × LiveRefreshable γ ε) (replaced : List (Nat × Time)) :
    List (Time × Event γ ε) → Option (List (Nat × Time) × Time × LiveRefreshable γ ε)
  | [] => some (replaced, x)
  | (wait, e) :: rest =>
    if wait = 0 ∨ x.2.idleUntil (x.1 + wait) = true then do
      let s ← x.2.step (x.1 + wait) e
      watch (x.1 + wait, s) (replaced ++ replacedBy (x.1 + wait) x.2 s) rest
    else none

end LiveRefreshable

end Outbound
