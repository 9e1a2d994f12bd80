/-!
# Agenda

A clock in milliseconds with the events that are due on it. Events are taken in the order of
their time, and those of one time in the order in which they were put down; the clock moves only
by taking an event or by being told to wait.
-/

namespace Outbound

/-- Milliseconds after the clock was started. -/
abbrev Time := Nat

/-- A clock and its events, sorted by time. -/
structure Agenda (ε : Type) where
  now : Time := 0
  entries : List (Time × ε) := []

namespace Agenda

variable {ε σ : Type}

/-- Puts an event behind all events that are due no later. -/
def insertEntry (due : Time) (e : ε) : List (Time × ε) → List (Time × ε)
  | [] => [(due, e)]
  | (t, x) :: rest => if t ≤ due then (t, x) :: insertEntry due e rest else (due, e) :: (t, x) :: rest

/-- An event that is due after a delay. -/
def after (a : Agenda ε) (delay : Time) (e : ε) : Agenda ε :=
  { a with entries := insertEntry (a.now + delay) e a.entries }

/-- An event that is due at once, behind those already due. -/
def soon (a : Agenda ε) (e : ε) : Agenda ε :=
  a.after 0 e

/-- Strikes out events. -/
def discard (a : Agenda ε) (p : ε → Bool) : Agenda ε :=
  { a with entries := a.entries.filter fun x ↦ !p x.2 }

/-- The time of the first event. -/
def next? (a : Agenda ε) : Option Time :=
  a.entries.head?.map (·.1)

/-- The first event if it is due by `limit`, with the clock moved to it. -/
def take? (a : Agenda ε) (limit : Time) : Option (ε × Agenda ε) :=
  match a.entries with
  | [] => none
  | (t, e) :: rest => if t ≤ limit then some (e, ⟨max a.now t, rest⟩) else none

/-- Handles events until none is due by `limit`, or until `fuel` of them were handled. -/
def handleUntil (handle : ε → Agenda ε → σ → Agenda ε × σ) (limit : Time) :
    Nat → Agenda ε → σ → Agenda ε × σ
  | 0, a, s => (a, s)
  | fuel + 1, a, s =>
    match a.take? limit with
    | none => (a, s)
    | some (e, a) =>
      let (a, s) := handle e a s
      handleUntil handle limit fuel a s

/-- More events than any run of a few thousand steps puts down. -/
def plenty : Nat := 1000000

/-- Handles what is due now. -/
def settle (handle : ε → Agenda ε → σ → Agenda ε × σ) (a : Agenda ε) (s : σ) : Agenda ε × σ :=
  handleUntil handle a.now plenty a s

/-- Waits for a while and handles everything that comes due. -/
def wait (handle : ε → Agenda ε → σ → Agenda ε × σ) (delay : Time) (a : Agenda ε) (s : σ) :
    Agenda ε × σ :=
  let stop := a.now + delay
  let (a, s) := handleUntil handle stop plenty a s
  ({ a with now := max a.now stop }, s)

/-- Handles events while `going` holds, until none is left or `fuel` of them were handled. -/
def handleWhile (handle : ε → Agenda ε → σ → Agenda ε × σ) (going : σ → Bool) :
    Nat → Agenda ε → σ → Agenda ε × σ
  | 0, a, s => (a, s)
  | fuel + 1, a, s =>
    if going s then
      match a.next? with
      | none => (a, s)
      | some due =>
        match a.take? due with
        | none => (a, s)
        | some (e, a) =>
          let (a, s) := handle e a s
          handleWhile handle going fuel a s
    else (a, s)

end Agenda

end Outbound
