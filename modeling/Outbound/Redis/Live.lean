import Outbound.Redis.Client
import Outbound.TimedRun

/-!
# A client whose server stops and starts

Commands are issued one after another. A command takes the current instance, dials if the instance
has no connection, sends, and waits for the answer; the server may stop and start between any two
of these acts. A dial succeeds if the server is up, and a connection is of no use any more once the
server has stopped.
-/

namespace Outbound.Redis

structure Server where
  up : Bool := true
  /-- How often it has stopped. -/
  outages : Nat := 0
deriving Repr, DecidableEq

structure Connection where
  /-- How often the server had stopped when the connection was made. -/
  madeAfter : Nat
deriving Repr, DecidableEq

/-- The server has not stopped since the connection was made. -/
def Server.holds (server : Server) (connection : Connection) : Bool :=
  connection.madeAfter == server.outages

/-- A client and its server at some time. -/
structure Moment where
  time : Time
  client : Refreshable (Instance Connection)
  server : Server

/-- What a command comes to. -/
inductive Ending (α : Type) where
  /-- The dial was refused. -/
  | refused (e : Error)
  | answered (reply : Except Error α)
  /-- The connection did not hold until there was an answer. -/
  | lost (e : Error)

namespace Ending

variable {α : Type}

def result : Ending α → Except Error α
  | refused e => .error e
  | answered reply => reply
  | lost e => .error e

/-- The command did not get an answer. -/
def failed : Ending α → Bool
  | refused _ => true
  | answered _ => false
  | lost _ => true

end Ending

/-- A command that has not returned. Nobody replaces the instance that it has taken, so that stays
the current one. -/
structure Command where
  found : Moment
  /-- Whether the connection held when the command was sent, once it is sent. -/
  sent : Option Bool := none

/-- A command that has returned. -/
structure Returned (α : Type) where
  found : Moment
  ending : Ending α
  /-- The instance it has used, as it was in the end. -/
  used : Instance Connection
  left : Moment
  result : Except Error α
  refresh : Option RefreshOutcome

structure LiveClient (α : Type) where
  client : Refreshable (Instance Connection)
  server : Server
  running : Option Command := none
  returned : List (Returned α) := []
  /-- The generations of the instances that were dialed successfully. -/
  dialed : List Nat := []

namespace LiveClient

variable {α : Type}

def new (policy : RefreshPolicy) (server : Server) : LiveClient α where
  client := { policy, current := {} }
  server := server

inductive Event (α : Type) where
  /-- The server stops. -/
  | stop
  /-- The server starts again. -/
  | start
  | issue
  /-- A dial succeeds. -/
  | dial
  /-- A dial is refused. -/
  | refuse (e : Error)
  | send
  | answer (reply : Except Error α)
  /-- It is noticed that the connection does not hold. -/
  | lose (e : Error)

/-- The end of the command that runs. -/
def conclude (now : Time) (s : LiveClient α) (found : Moment) (ending : Ending α) : LiveClient α :=
  let executed := Redis.conclude s.client now ending.result
  { s with
    client := executed.client
    running := none
    returned := s.returned ++ [{
      found, ending
      used := s.client.current
      left := ⟨now, executed.client, s.server⟩
      result := executed.result
      refresh := executed.refresh }] }

/-- The state after an event, if the event can happen. -/
def step (now : Time) (s : LiveClient α) : Event α → Option (LiveClient α)
  | .stop => if s.server.up then some { s with server := ⟨false, s.server.outages + 1⟩ } else none
  | .start => if s.server.up then none else some { s with server := { s.server with up := true } }
  | .issue =>
    match s.running with
    | none => some { s with running := some { found := ⟨now, s.client, s.server⟩ } }
    | some _ => none
  | .dial =>
    match s.running, s.client.current.connection with
    | some ⟨_, none⟩, none =>
      if s.server.up then
        some { s with
          client := { s.client with current := ⟨some ⟨s.server.outages⟩⟩ }
          dialed := s.dialed ++ [s.client.generation] }
      else none
    | _, _ => none
  | .refuse e =>
    match s.running, s.client.current.connection with
    | some ⟨found, none⟩, none =>
      if s.server.up = false ∧ e.isLost = true then
        some (s.conclude now found (.refused e))
      else none
    | _, _ => none
  | .send =>
    match s.running, s.client.current.connection with
    | some ⟨found, none⟩, some connection =>
      some { s with running := some ⟨found, some (s.server.holds connection)⟩ }
    | _, _ => none
  | .answer reply =>
    match s.running with
    | some ⟨found, some true⟩ => some (s.conclude now found (.answered reply))
    | _ => none
  | .lose e =>
    match s.running, s.client.current.connection with
    | some ⟨found, some _⟩, some connection =>
      if s.server.holds connection = false ∧ e.isLost = true then
        some (s.conclude now found (.lost e))
      else none
    | _, _ => none

/-- What the event makes a command come to. -/
def Event.ending? : Event α → Option (Ending α)
  | refuse e => some (.refused e)
  | answer reply => some (.answered reply)
  | lose e => some (.lost e)
  | _ => none

/-- The event is an act of the command that runs. -/
def Event.isAct : Event α → Bool
  | stop => false
  | start => false
  | issue => false
  | _ => true

/-- Runs from a client at some time. -/
abbrev Run : Time × LiveClient α → List (Event α) → Time × LiveClient α → Prop :=
  TimedRun step

end LiveClient

end Outbound.Redis
