import Outbound.Eth.BatchingSettings
import Outbound.Eth.Rpc
import Outbound.Reload

/-!
# Batching clients under changing settings

Settings are replaced while calls are made, and each of them comes into force with a client of its
own, unless none of its endpoints can be used. Whoever has loaded settings calls through their
client. The client of replaced settings is kept for a while and then closed by a task, one lane
after the other, so that several clients are at work at a time. How many bytes a waiting call takes,
on which it depends whether there is room for the windows of a client, is up to the compiler.

All of this happens inside a runtime, so that tasks can be spawned.
-/

namespace Outbound.Eth

/-- Settings as they come into force. -/
structure Edition where
  /-- How many settings were in force before. -/
  number : Nat
  settings : BatchingSettings
  /-- The endpoints of the client, if there is one. -/
  endpoints : Option Endpoints := none

namespace Edition

/-- The endpoints are those that can be used. -/
def dialed (v : Edition) : Edition :=
  { v with endpoints := v.settings.eth.dial.toOption.map Prod.fst }

/-- The client of replaced settings is left to be closed. -/
def leftovers (v : Edition) : List Nat :=
  if v.endpoints.isSome then [v.number] else []

def hook : Reloadable Edition Nat :=
  .building dialed leftovers

def buildable (v : Edition) (callBytes : Nat) : Bool :=
  v.settings.buildable callBytes v.endpoints

def client {ι : Type} (v : Edition) : Option (BatchingClient ι) :=
  v.endpoints.map v.settings.client

end Edition

inductive ClosingPhase where
  /-- The task has not run yet. -/
  | spawned
  | sleeping (due : Time)
  /-- The latest lane is closed, and the archive lane is next. -/
  | halfway
  | done
deriving Repr, DecidableEq

namespace ClosingPhase

/-- A task in that phase has nothing to do before that time. -/
def idleUntil (later : Time) : ClosingPhase → Bool
  | spawned => false
  | sleeping due => later ≤ due
  | halfway => false
  | done => true

/-- A task in that phase has closed that lane. -/
def hasClosed : ClosingPhase → Lane → Bool
  | halfway, .latest => true
  | done, _ => true
  | _, _ => false

end ClosingPhase

/-- The task that closes a client. -/
structure Closing where
  /-- When it was spawned. -/
  since : Time
  phase : ClosingPhase := .spawned
deriving Repr, DecidableEq

namespace Closing

/-- The task runs for the first time and begins its sleep. -/
def sleep? (now : Time) (task : Closing) : Option Closing :=
  match task.phase with
  | .spawned => some { task with phase := .sleeping (now + clientCloseDelay) }
  | _ => none

/-- The task goes on to close a lane. -/
def close? (now : Time) (lane : Lane) (task : Closing) : Option Closing :=
  match task.phase, lane with
  | .sleeping due, .latest => if due ≤ now then some { task with phase := .halfway } else none
  | .halfway, .archive => some { task with phase := .done }
  | _, _ => none

end Closing

/-- Settings that came into force, and what has become of their client. -/
structure Generation (ι : Type) where
  edition : Edition
  /-- When they came into force. -/
  since : Time
  client : Option (BatchingClient ι)
  /-- When others were to replace them and could not be built. -/
  failed : List Time := []
  closings : List Closing := []

namespace Generation

variable {ι : Type}

def new (now : Time) (edition : Edition) : Generation ι :=
  { edition, since := now, client := edition.client }

def retire (now : Time) (g : Generation ι) : Generation ι :=
  { g with closings := g.closings ++ [{ since := now }] }

def fail (now : Time) (g : Generation ι) : Generation ι :=
  { g with failed := g.failed ++ [now] }

end Generation

namespace BatchingClient

/-- The event takes neither a hold of the client nor a reply. -/
def Event.isPlain {ι : Type} : Event ι → Bool
  | call _ _ _ _ => false
  | reply _ _ _ => false
  | lane _ .free => true
  | lane _ event => event.isTask
  | _ => true

end BatchingClient

/-- The settings in force with all that ever were, and what was loaded of them. -/
structure Reloading (ι : Type) where
  live : LiveConfig Edition
  /-- By their numbers. -/
  generations : List (Generation ι)
  snapshots : List Edition := []

namespace Reloading

variable {ι : Type} (callBytes : Nat)

/-- The first settings, unless they cannot be built. -/
def new (now : Time) (settings : BatchingSettings) : Option (Reloading ι) :=
  let (live, _) := LiveConfig.new Edition.hook { number := 0, settings }
  if live.load.buildable callBytes then some { live, generations := [.new now live.load] } else none

/-- Tasks are spawned that close the clients of those numbers. -/
def retire (now : Time) (s : Reloading ι) (numbers : List Nat) : Reloading ι :=
  { s with
    generations := numbers.foldl (fun gs k ↦ gs.modify k (Generation.retire now)) s.generations }

/-- Other settings come into force. If they cannot be built, the old ones stay in force, although
their client is already left to be closed. -/
def update (now : Time) (s : Reloading ι) (settings : BatchingSettings) : Reloading ι :=
  let (live, leftovers) := s.live.update Edition.hook { number := s.generations.length, settings }
  let left := s.retire now leftovers
  if live.load.buildable callBytes then
    { left with live, generations := left.generations ++ [.new now live.load] }
  else
    { left with generations := left.generations.modify s.live.load.number (Generation.fail now) }

/-- What happens at one moment. -/
inductive Event (ι : Type) where
  | update (settings : BatchingSettings)
  /-- Somebody loads the settings in force and keeps them. -/
  | load
  | forget (snapshot : Nat)
  /-- Somebody who has loaded settings calls through their client. -/
  | call (generation : Nat) (id : ι) (msg : CallMsg) (block : BlockRef) (ctx : Context)
  /-- An attempt at a batch of `count` calls, numbered from `first` on, ends with that exchange. -/
  | reply (generation job : Nat) (first : UInt64) (count : Nat) (exchange : Exchange)
    (next? : Nanos → Option (Nanos × Nanos))
  /-- Anything else happens to a client or is done by its tasks. -/
  | act (generation : Nat) (event : BatchingClient.Event ι)
  /-- A closing task of a client begins its sleep. -/
  | sleep (generation task : Nat)
  /-- A closing task closes a lane. -/
  | close (generation task : Nat) (lane : Lane)
  /-- Nobody has a client any more, and a lane of it is let go of. -/
  | drop (generation : Nat) (lane : Lane)

/-- Somebody has loaded the settings of that number. -/
def isLoaded (s : Reloading ι) (k : Nat) : Bool :=
  s.snapshots.any fun v ↦ v.number = k

/-- A job of a client has sent a batch of that many calls. -/
def awaits (s : Reloading ι) (k job count : Nat) : Bool :=
  ((s.generations[k]?.bind (·.client)).bind (·.jobs[job]?)).any fun j ↦
    match j.phase with
    | .sent batch => batch.calls.length = count
    | _ => false

/-- Nobody can close the client of those settings or call through it any more. -/
def isLetGo (s : Reloading ι) (k : Nat) : Bool :=
  k != s.live.load.number && !s.isLoaded k &&
    s.generations[k]?.all fun g ↦ g.closings.all (·.phase = .done)

/-- A closing task goes on. -/
def onClosing (s : Reloading ι) (k n : Nat) (next? : Closing → Option Closing) :
    Option (Reloading ι) := do
  let g ← s.generations[k]?
  let task ← next? (← g.closings[n]?)
  return { s with generations := s.generations.set k { g with closings := g.closings.set n task } }

variable [DecidableEq ι]

/-- Something happens to a client. -/
def onClient (now : Time) (s : Reloading ι) (k : Nat) (event : BatchingClient.Event ι) :
    Option (Reloading ι) := do
  let g ← s.generations[k]?
  let client ← (← g.client).step now event
  return { s with generations := s.generations.set k { g with client := some client } }

/-- The state after an event, if the event can happen. -/
def step (now : Time) (s : Reloading ι) : Event ι → Option (Reloading ι)
  | .update settings => some (s.update callBytes now settings)
  | .load => some { s with snapshots := s.live.load :: s.snapshots }
  | .forget i =>
    if i < s.snapshots.length then some { s with snapshots := s.snapshots.eraseIdx i } else none
  | .call k id msg block ctx =>
    if s.isLoaded k then s.onClient now k (.call id msg block ctx) else none
  | .reply k job first count exchange next? =>
    if s.awaits k job count then
      s.onClient now k (.reply job (Rpc.readBatch first count exchange) next?)
    else none
  | .act k event => if event.isPlain then s.onClient now k event else none
  | .sleep k n => s.onClosing k n (Closing.sleep? now)
  | .close k n lane => do
    (← s.onClosing k n (Closing.close? now lane)).onClient now k (.lane lane .close)
  | .drop k lane => if s.isLetGo k then s.onClient now k (.lane lane .drop) else none

/-- No closing task has anything to do before that time. -/
def idleUntil (s : Reloading ι) (later : Time) : Bool :=
  s.generations.all fun g ↦ g.closings.all fun task ↦ task.phase.idleUntil later

/-- One thing happens after the other, each at its time. On a prompt clock no time passes while a
closing task can run. -/
inductive Run (prompt : Prop) (x : Time × Reloading ι) :
    List (Time × Event ι) → Time × Reloading ι → Prop where
  | refl : Run prompt x [] x
  | wait {events : List (Time × Event ι)} {now later : Time} {s : Reloading ι}
    (run : Run prompt x events (now, s)) (h : now ≤ later)
    (idle : prompt → s.idleUntil later = true) : Run prompt x events (later, s)
  | event {events : List (Time × Event ι)} {now : Time} {s s' : Reloading ι}
    (run : Run prompt x events (now, s)) (e : Event ι) (h : s.step callBytes now e = some s') :
    Run prompt x (events ++ [(now, e)]) (now, s')

end Reloading

end Outbound.Eth
